import Mathlib.Data.List.Basic
import Mathlib.Data.List.Induction
import OpcodeTable.Json.Members

/-!
# Members that are put together

An object is built up from the members that are written by putting one after the other.  What comes
of it can be said without going through them: the names are the different ones that are written,
in the order of their first occurrences, and each name has the last value that is written for it.

## What is here

* `Members.names_put`, `Members.find?_put` and `Members.mem_of_mem_put` for one member.
* `Members.collect`, the members that are put together, and `Members.names_collect`,
  `Members.find?_collect` and `Members.mem_of_mem_collect`, by induction from the last member on.
* `Members.lastOfEach`, the same members without putting them together.
-/

set_option autoImplicit false

namespace OpcodeTable
namespace Json

variable {α β : Type}

/-- Among different keys, the value of a key is that of its only pair. -/
theorem lookup_eq_some_iff {κ : Type} [BEq κ] [LawfulBEq κ] {pairs : List (κ × α)}
    (h : (pairs.map Prod.fst).Nodup) {key : κ} {value : α} :
    pairs.lookup key = some value ↔ (key, value) ∈ pairs := by
  induction pairs with
  | nil => simp
  | cons pair rest ih =>
    obtain ⟨other, first⟩ := pair
    obtain ⟨hnew, hrest⟩ := List.nodup_cons.1 h
    rw [List.lookup_cons, List.mem_cons, Prod.mk.injEq]
    split
    · next heq =>
      obtain rfl : key = other := beq_iff_eq.1 heq
      have hnot : (key, value) ∉ rest := fun hmem => hnew (List.mem_map.2 ⟨_, hmem, rfl⟩)
      simp [hnot, eq_comm]
    · next hne => simpa [beq_eq_false_iff_ne.1 hne] using ih hrest

/-- Among different keys it does not matter in which order the pairs are. -/
theorem lookup_eq_of_perm {κ : Type} [BEq κ] [LawfulBEq κ] {first second : List (κ × α)}
    (h : first.Perm second) (hfirst : (first.map Prod.fst).Nodup) (key : κ) :
    first.lookup key = second.lookup key := by
  refine Option.ext fun value => ?_
  rw [lookup_eq_some_iff hfirst, lookup_eq_some_iff ((h.map Prod.fst).nodup hfirst), h.mem_iff]

/-- A further name is new, or it does not count. -/
theorem eraseDups_append_singleton (names : List String) (new : String) :
    (names ++ [new]).eraseDups =
      if new ∈ names then names.eraseDups else names.eraseDups ++ [new] := by
  rw [List.eraseDups_append, List.removeAll]
  split
  · next hmem => simp [hmem]
  · next hnew => simp [hnew, List.eraseDups_cons]

theorem length_eraseDups_le (names : List String) : names.eraseDups.length ≤ names.length := by
  induction names using List.reverseRecOn with
  | nil => simp
  | append_singleton before new ih =>
    rw [eraseDups_append_singleton]
    split <;> simp <;> omega

/-- None of the names is lost only if they are all different. -/
theorem length_eraseDups_eq_iff {names : List String} :
    names.eraseDups.length = names.length ↔ names.Nodup := by
  induction names using List.reverseRecOn with
  | nil => simp
  | append_singleton before new ih =>
    have hle := length_eraseDups_le before
    rw [eraseDups_append_singleton, List.length_append, List.length_singleton]
    split
    · next hmem =>
      have hdup : ¬(before ++ [new]).Nodup := fun h =>
        (List.nodup_append.1 h).2.2 new hmem new (List.mem_singleton.2 rfl) rfl
      exact iff_of_false (by omega) hdup
    · next hnew =>
      rw [List.length_append, List.length_singleton, Nat.add_right_cancel_iff, ih]
      refine ⟨fun h => ?_, fun h => (List.nodup_append.1 h).1⟩
      refine List.nodup_append.2 ⟨h, by simp, ?_⟩
      rintro name hname other hother rfl
      exact hnew (List.mem_singleton.1 hother ▸ hname)

namespace Members

theorem names_append (first second : Members α) :
    names (first ++ second) = names first ++ names second :=
  List.map_append

theorem find?_cons (member : String × α) (rest : Members α) (name : String) :
    find? (member :: rest) name = if name = member.1 then some member.2 else find? rest name := by
  rw [find?, List.lookup_cons]
  split
  · next heq => rw [if_pos (beq_iff_eq.1 heq)]
  · next hne => rw [if_neg (beq_eq_false_iff_ne.1 hne), find?]

theorem names_map (f : α → β) (members : Members α) :
    names (members.map fun member => (member.1, f member.2)) = names members := by
  rw [names, names, List.map_map]
  rfl

theorem find?_map (f : α → β) (members : Members α) (name : String) :
    find? (members.map fun member => (member.1, f member.2)) name =
      (members.find? name).map f := by
  induction members with
  | nil => rfl
  | cons first rest ih =>
    rw [List.map_cons, find?_cons, find?_cons, ih]
    split <;> rfl

theorem find?_eq_none_iff {members : Members α} {name : String} :
    members.find? name = none ↔ name ∉ members.names := by
  induction members with
  | nil => simp [find?, names]
  | cons member rest ih =>
    change _ ↔ name ∉ member.1 :: names rest
    rw [find?_cons, List.mem_cons, not_or, ← ih]
    split
    · next heq => simp [heq]
    · next hne => simp [hne]

/-- Among different names, the value of a name is that of its only member. -/
theorem find?_eq_some_iff {members : Members α} (h : members.names.Nodup) {name : String}
    {value : α} : members.find? name = some value ↔ (name, value) ∈ members :=
  lookup_eq_some_iff h

theorem mem_of_find? {members : Members α} {name : String} {value : α}
    (h : members.find? name = some value) : (name, value) ∈ members := by
  induction members with
  | nil => cases h
  | cons member rest ih =>
    rw [find?_cons] at h
    split at h
    · next heq =>
      cases h
      rw [heq]
      exact List.mem_cons_self ..
    · exact List.mem_cons_of_mem _ (ih h)

/-- What is left without a name has the values of the others. -/
theorem find?_remove (members : Members α) (removed name : String) :
    (members.remove removed).find? name = if name = removed then none else members.find? name := by
  induction members with
  | nil => simp [remove, find?]
  | cons member rest ih =>
    rw [remove] at ih ⊢
    by_cases heq : member.1 = removed
    · rw [List.filter_cons_of_neg (by simpa using heq), ih, find?_cons, heq]
      split <;> rfl
    · rw [List.filter_cons_of_pos (by simpa using heq), find?_cons, find?_cons, ih]
      by_cases hname : name = member.1
      · simp [hname, heq]
      · simp [hname]

/-! ## One member -/

/-- Only a new name is added. -/
theorem names_put (members : Members α) (name : String) (value : α) :
    (members.put name value).names =
      if name ∈ members.names then members.names else members.names ++ [name] := by
  induction members with
  | nil => rfl
  | cons member rest ih =>
    obtain ⟨other, old⟩ := member
    rw [put]
    by_cases heq : other = name
    · simp [heq, names]
    · have hne : name ≠ other := fun h => heq h.symm
      rw [if_neg heq]
      change other :: (put rest name value).names = if name ∈ other :: names rest then
        other :: names rest else other :: names rest ++ [name]
      rw [ih]
      simp only [List.mem_cons, hne, false_or]
      split <;> rfl

/-- The name has the new value, and the others have what they had. -/
theorem find?_put (members : Members α) (name : String) (value : α) (other : String) :
    (members.put name value).find? other =
      if other = name then some value else members.find? other := by
  induction members with
  | nil => exact find?_cons (name, value) [] other
  | cons member rest ih =>
    obtain ⟨first, old⟩ := member
    rw [put]
    by_cases heq : first = name
    · subst heq
      rw [if_pos rfl, find?_cons, find?_cons]
      split <;> rfl
    · rw [if_neg heq, find?_cons, find?_cons, ih]
      by_cases hother : other = first
      · simp [hother, heq]
      · simp [hother]

theorem mem_of_mem_put {members : Members α} {name : String} {value : α} {member : String × α}
    (h : member ∈ members.put name value) : member = (name, value) ∨ member ∈ members := by
  induction members with
  | nil => exact .inl (List.mem_singleton.1 h)
  | cons first rest ih =>
    obtain ⟨other, old⟩ := first
    rw [put] at h
    split at h
    · rcases List.mem_cons.1 h with h | h
      · exact .inl h
      · exact .inr (List.mem_cons_of_mem _ h)
    · rcases List.mem_cons.1 h with h | h
      · exact .inr (h ▸ List.mem_cons_self ..)
      · exact (ih h).imp_right (List.mem_cons_of_mem _)

/-- A new name goes last. -/
theorem put_of_not_mem {members : Members α} {name : String} (h : name ∉ members.names)
    (value : α) : members.put name value = members ++ [(name, value)] := by
  induction members with
  | nil => rfl
  | cons first rest ih =>
    obtain ⟨other, old⟩ := first
    obtain ⟨hne, hrest⟩ := not_or.1 (mt List.mem_cons.2 h)
    rw [put, if_neg (Ne.symm hne), ih hrest]
    rfl

theorem put_map (f : α → β) (members : Members α) (name : String) (value : α) :
    Members.put (members.map fun member => (member.1, f member.2)) name (f value) =
      (members.put name value).map fun member => (member.1, f member.2) := by
  induction members with
  | nil => rfl
  | cons first rest ih =>
    obtain ⟨other, old⟩ := first
    rw [List.map_cons, put, put]
    split
    · rfl
    · rw [List.map_cons, ih]

/-! ## All members -/

/-- The members of an object from those that are written: a name that is written again keeps its
first place and takes its last value. -/
def collect (written : Members α) : Members α :=
  written.foldl (fun before member => before.put member.1 member.2) []

theorem collect_append_singleton (written : Members α) (member : String × α) :
    collect (written ++ [member]) = (collect written).put member.1 member.2 := by
  rw [collect, List.foldl_append]
  rfl

/-- Each name once, in the order of first occurrences. -/
theorem names_collect (written : Members α) :
    (collect written).names = (names written).eraseDups := by
  induction written using List.reverseRecOn with
  | nil => rfl
  | append_singleton before member ih =>
    rw [collect_append_singleton, names_put, ih, names_append]
    change _ = (names before ++ [member.1]).eraseDups
    rw [eraseDups_append_singleton]
    simp only [List.mem_eraseDups]

/-- The last value of each name. -/
theorem find?_collect (written : Members α) (name : String) :
    (collect written).find? name = find? written.reverse name := by
  induction written using List.reverseRecOn with
  | nil => rfl
  | append_singleton before member ih =>
    rw [collect_append_singleton, find?_put, ih, List.reverse_append, List.reverse_singleton,
      List.singleton_append, find?_cons]

/-- No name is left twice. -/
theorem nodup_names_collect (written : Members α) : (collect written).names.Nodup := by
  induction written using List.reverseRecOn with
  | nil => exact List.nodup_nil
  | append_singleton before member ih =>
    rw [collect_append_singleton, names_put]
    split
    · exact ih
    · next hnew =>
      refine List.nodup_append.2 ⟨ih, by simp, ?_⟩
      rintro first hfirst second hsecond rfl
      exact hnew (List.mem_singleton.1 hsecond ▸ hfirst)

theorem mem_of_mem_collect {written : Members α} {member : String × α}
    (h : member ∈ collect written) : member ∈ written := by
  induction written using List.reverseRecOn with
  | nil => exact h
  | append_singleton before last ih =>
    rw [collect_append_singleton] at h
    rcases mem_of_mem_put h with rfl | h
    · exact List.mem_append_right _ (List.mem_singleton.2 rfl)
    · exact List.mem_append_left _ (ih h)

theorem collect_map (f : α → β) (written : Members α) :
    collect (written.map fun member => (member.1, f member.2)) =
      (collect written).map fun member => (member.1, f member.2) := by
  induction written using List.reverseRecOn with
  | nil => rfl
  | append_singleton before member ih =>
    rw [List.map_append, List.map_singleton, collect_append_singleton, ih, put_map,
      collect_append_singleton]

/-- Different names stay as they are written. -/
theorem collect_of_nodup {written : Members α} (h : written.names.Nodup) :
    collect written = written := by
  induction written using List.reverseRecOn with
  | nil => rfl
  | append_singleton before member ih =>
    rw [names_append, List.nodup_append] at h
    have hnew : member.1 ∉ names before := fun hmem =>
      h.2.2 member.1 hmem member.1 (List.mem_singleton.2 rfl) rfl
    rw [collect_append_singleton, ih h.1, put_of_not_mem hnew]

/-- The members of an object, said without putting them together: each name once, in the order of
first occurrences, with the last value that is written for it. -/
def lastOfEach (written : Members α) : Members α :=
  written.names.eraseDups.filterMap fun name =>
    (find? written.reverse name).map fun value => (name, value)

/-- Members with different names are given by the names and the value of each. -/
theorem filterMap_find?_names {members : Members α} (h : members.names.Nodup) :
    (members.names.filterMap fun name => (members.find? name).map fun value => (name, value)) =
      members := by
  induction members with
  | nil => rfl
  | cons member rest ih =>
    obtain ⟨name, value⟩ := member
    obtain ⟨hnew, hrest⟩ := List.nodup_cons.1 h
    have hothers : ∀ other ∈ names rest,
        (find? ((name, value) :: rest) other).map (fun value => (other, value)) =
          (find? rest other).map fun value => (other, value) := by
      intro other hother
      have hne : other ≠ name := fun heq => hnew (heq ▸ hother)
      rw [find?_cons, if_neg hne]
    have hfirst : find? ((name, value) :: rest) name = some value := by
      rw [find?_cons, if_pos rfl]
    change (name :: names rest).filterMap _ = _
    rw [List.filterMap_cons, hfirst, List.filterMap_congr hothers, ih hrest]
    rfl

/-- Putting members together comes to that. -/
theorem collect_eq_lastOfEach (written : Members α) : collect written = written.lastOfEach := by
  have hfilter := filterMap_find?_names (nodup_names_collect written)
  simp only [names_collect, find?_collect] at hfilter
  exact hfilter.symm

end Members

end Json
end OpcodeTable
