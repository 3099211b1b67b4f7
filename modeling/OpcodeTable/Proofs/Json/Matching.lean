import Mathlib.Data.List.Forall2
import OpcodeTable.Proofs.Json.Members

/-!
# Lists and members that match one by one

Two lists match if they hold at every index what the other one holds there, up to a relation, and
two objects match if they have under every name what the other one has there.  Names are different,
so the second object can be brought into the order of the first, member by member.

## What is here

* `rel_imp`, `rel_congr`, `rel_bind` and `rel_or` for what is found on both sides, or on neither.
* `forall₂_iff_getElem?`, by which lists match if they do so at every index.
* `Members.names_perm_of_rel`, `Members.pick` and `Members.exists_perm_of_rel` for members.
-/

set_option autoImplicit false

namespace OpcodeTable
namespace Json

variable {α β γ δ : Type}

/-! ## What is found on both sides -/

section Rel

variable {r s : α → β → Prop} {first : Option α} {second : Option β}

theorem rel_imp (h : Option.Rel r first second)
    (himp : ∀ a b, first = some a → second = some b → r a b → s a b) :
    Option.Rel s first second := by
  cases h with
  | none => exact .none
  | some h => exact .some (himp _ _ rfl rfl h)

theorem rel_congr (h : ∀ a b, first = some a → second = some b → (r a b ↔ s a b)) :
    Option.Rel r first second ↔ Option.Rel s first second :=
  ⟨fun hr => rel_imp hr fun a b ha hb => (h a b ha hb).1,
    fun hs => rel_imp hs fun a b ha hb => (h a b ha hb).2⟩

theorem rel_some_left_iff {a : α} :
    Option.Rel r (some a) second ↔ ∃ b, second = some b ∧ r a b := by
  cases second with
  | none => exact iff_of_false (fun h => nomatch h) (fun ⟨_, hb, _⟩ => nomatch hb)
  | some b => simp

theorem rel_some_right_iff {b : β} :
    Option.Rel r first (some b) ↔ ∃ a, first = some a ∧ r a b := by
  cases first with
  | none => exact iff_of_false (fun h => nomatch h) (fun ⟨_, ha, _⟩ => nomatch ha)
  | some a => simp

theorem isSome_eq_of_rel (h : Option.Rel r first second) : first.isSome = second.isSome := by
  cases h <;> rfl

theorem rel_or {others : Option α} {others' : Option β} (h : Option.Rel r first second)
    (hothers : Option.Rel r others others') :
    Option.Rel r (first.or others) (second.or others') := by
  cases h with
  | none => exact hothers
  | some h => exact .some h

theorem rel_bind {t : γ → δ → Prop} {f : α → Option γ} {g : β → Option δ}
    (h : Option.Rel r first second) (hinner : ∀ a b, r a b → Option.Rel t (f a) (g b)) :
    Option.Rel t (first.bind f) (second.bind g) := by
  cases h with
  | none => exact .none
  | some h => exact hinner _ _ h

theorem rel_map_iff {t : γ → δ → Prop} {f : α → γ} {g : β → δ} :
    Option.Rel t (first.map f) (second.map g) ↔
      Option.Rel (fun a b => t (f a) (g b)) first second := by
  cases first <;> cases second
  · simp
  · exact iff_of_false (fun h => nomatch h) (fun h => nomatch h)
  · exact iff_of_false (fun h => nomatch h) (fun h => nomatch h)
  · simp

end Rel

theorem rel_of_eq {r : α → α → Prop} (hrefl : ∀ a, r a a) {first second : Option α}
    (h : first = second) : Option.Rel r first second := by
  subst h
  cases first with
  | none => exact .none
  | some a => exact .some (hrefl a)

/-- Lists match if and only if they match at every index, where both must end together. -/
theorem forall₂_iff_getElem? {r : α → β → Prop} {first : List α} {second : List β} :
    List.Forall₂ r first second ↔ ∀ index : Nat, Option.Rel r first[index]? second[index]? := by
  constructor
  · intro h
    induction h with
    | nil => exact fun index => .none
    | cons hfirst _ ih =>
      intro index
      cases index with
      | zero => exact .some hfirst
      | succ index => exact ih index
  · intro h
    induction first generalizing second with
    | nil =>
      cases second with
      | nil => exact .nil
      | cons b rest => cases h 0
    | cons a rest ih =>
      obtain ⟨b, hb, hab⟩ := rel_some_left_iff.1 (h 0)
      cases second with
      | nil => cases hb
      | cons b others =>
        cases hb
        exact .cons hab (ih fun index => h (index + 1))

/-- Lists match that differ at one index only. -/
theorem forall₂_middle {r : α → α → Prop} (hrefl : ∀ a, r a a) {a b : α} (h : r a b)
    (before after : List α) : List.Forall₂ r (before ++ a :: after) (before ++ b :: after) := by
  induction before with
  | nil => exact .cons h (List.forall₂_same.2 fun c _ => hrefl c)
  | cons c rest ih => exact .cons (hrefl c) ih

theorem forall₂_congr {r s : α → β → Prop} {first : List α} {second : List β}
    (h : ∀ a ∈ first, ∀ b ∈ second, (r a b ↔ s a b)) :
    List.Forall₂ r first second ↔ List.Forall₂ s first second := by
  rw [forall₂_iff_getElem?, forall₂_iff_getElem?]
  refine forall_congr' fun index => rel_congr fun a b ha hb => ?_
  exact h a (List.mem_of_getElem? ha) b (List.mem_of_getElem? hb)

/-! ## Members -/

namespace Members

theorem find?_append (first second : Members α) (name : String) :
    find? (first ++ second) name = (first.find? name).or (second.find? name) :=
  List.lookup_append

theorem isSome_find?_iff {members : Members α} {name : String} :
    (members.find? name).isSome = true ↔ name ∈ members.names := by
  rw [← not_iff_not, Bool.not_eq_true, Option.isSome_eq_false_iff, Option.isNone_iff_eq_none]
  exact find?_eq_none_iff

theorem mem_names_iff_of_rel {r : α → β → Prop} {first : Members α} {second : Members β}
    {name : String} (h : Option.Rel r (first.find? name) (second.find? name)) :
    name ∈ first.names ↔ name ∈ second.names := by
  rw [← isSome_find?_iff, ← isSome_find?_iff, isSome_eq_of_rel h]

/-- The members with these names, in the order of the names. -/
def pick (members : Members α) (names : List String) : Members α :=
  names.filterMap fun name => (members.find? name).map fun value => (name, value)

theorem pick_cons {members : Members α} {name : String} {value : α}
    (h : members.find? name = some value) (names : List String) :
    members.pick (name :: names) = (name, value) :: members.pick names := by
  simp [pick, h]

/-- Members match what is picked in their order. -/
theorem forall₂_pick {r : α → β → Prop} {first : Members α} {second : Members β}
    (h : ∀ member ∈ first, ∃ value, second.find? member.1 = some value ∧ r member.2 value) :
    List.Forall₂ (fun a b => a.1 = b.1 ∧ r a.2 b.2) first (second.pick first.names) := by
  induction first with
  | nil => exact .nil
  | cons member rest ih =>
    obtain ⟨⟨value, hfound, hvalue⟩, hrest⟩ := List.forall_mem_cons.1 h
    show List.Forall₂ _ _ (second.pick (member.1 :: names rest))
    rw [pick_cons hfound]
    exact .cons ⟨rfl, hvalue⟩ (ih hrest)

section

variable {r : α → β → Prop} {first : Members α} {second : Members β}
  (hfirst : first.names.Nodup) (hsecond : second.names.Nodup)
  (h : ∀ name, Option.Rel r (first.find? name) (second.find? name))

include hfirst hsecond h

theorem names_perm_of_rel : first.names.Perm second.names :=
  (List.perm_ext_iff_of_nodup hfirst hsecond).2 fun name => mem_names_iff_of_rel (h name)

/-- The second members can be brought into the order of the first. -/
theorem exists_perm_of_rel : ∃ ordered : Members β,
    List.Forall₂ (fun a b => a.1 = b.1 ∧ r a.2 b.2) first ordered ∧ ordered.Perm second := by
  refine ⟨second.pick first.names, forall₂_pick fun member hmem => ?_, ?_⟩
  · have hmember := h member.1
    rw [(find?_eq_some_iff hfirst).2 hmem] at hmember
    exact rel_some_left_iff.1 hmember
  · have hperm := (names_perm_of_rel hfirst hsecond h).filterMap fun name =>
      (second.find? name).map fun value => (name, value)
    rwa [filterMap_find?_names hsecond] at hperm

end

end Members

end Json
end OpcodeTable
