import Mathlib.Data.List.Perm.Subperm
import Mathlib.Logic.Relation
import OpcodeTable.Proofs.Json.Places

/-!
# Equality up to the order of members

Two objects are compared by their sizes and by looking up every member of the one in the other.
That is a comparison from one side: with names that occur twice it need not even be symmetric.  In
a value that was read no object has a name twice, at any depth, and of such values it can be said
without a comparison which ones are equal.

Two of them are equal if and only if the same can be seen at every place of both, where of an array
or an object only that it is one can be seen, and of a zero not the sign.  So equality is what the
kernel of a function is, and nothing more has to be shown for it to be an equivalence.

Two of them are also equal if and only if one can be rearranged into the other, by putting the
members of objects in another order and by changing the signs of zeros.

## What is here

* `Value.Distinct`, values whose objects have different names, and `Readable.distinct`.
* `Value.seenAt?`, what is seen at a place, and `Value.seenAt?_eq_iff`, which takes it to the
  children.
* `Value.Distinct.same_iff_children`, the comparison itself, and from it, by induction on the value,
  `Value.Distinct.same_iff_seenAt?`.
* `Value.Rearrangement`, a single change that does not count, with `Rearrangement.rel_child?`, all
  that it can do, and `Value.Rearranged`, any number of them.
* `Value.Distinct.same_iff_rearranged`.
-/

set_option autoImplicit false

namespace OpcodeTable
namespace Json

namespace Value

/-- The values are equal up to the order of members. -/
abbrev Same (first second : Value) : Prop :=
  first.same second = true

/-! ## Different names -/

/-- In the value no object, at any depth, has two members with one name. -/
inductive Distinct : Value → Prop
  | of_children {value : Value}
      (hnames : ∀ fields : Fields, value = .object fields → fields.names.Nodup)
      (hchildren : ∀ child inner, value.child? child = some inner → Distinct inner) :
      Distinct value

theorem Distinct.names {fields : Fields} (h : Distinct (.object fields)) : fields.names.Nodup := by
  cases h with
  | of_children hnames => exact hnames fields rfl

theorem Distinct.of_child? {value inner : Value} {child : Child} (h : value.Distinct)
    (hinner : value.child? child = some inner) : inner.Distinct := by
  cases h with
  | of_children _ hchildren => exact hchildren child inner hinner

end Value

/-- A value that was read has different names in every object. -/
theorem Readable.distinct {depth : Nat} {value : Value} (h : Readable depth value) :
    value.Distinct := by
  induction h with
  | null | boolean | integer | float | string =>
    exact .of_children (fun _ hobject => nomatch hobject) fun _ _ hchild => nomatch hchild
  | array _ ih =>
    refine .of_children (fun _ hobject => nomatch hobject) fun child inner hchild => ?_
    cases child with
    | item index => exact ih inner (List.mem_of_getElem? hchild)
    | member name => cases hchild
  | object hnames _ ih =>
    refine .of_children ?_ fun child inner hchild => ?_
    · rintro _ ⟨⟩
      exact hnames
    · cases child with
      | item index => cases hchild
      | member name => exact ih (name, inner) (Members.mem_of_find? hchild)

/-! ## What is seen of a value -/

/-- The number, but for the sign of a zero. -/
def Number.outline : Number → Number
  | .integer n => .integer n
  | .float x => .float (if x.rank = 0 then .zero false else x)

/-- Numbers are equal if they are of one kind and the same but for the sign of a zero. -/
theorem Number.same_iff_outline {m n : Number} : m.same n = true ↔ m.outline = n.outline := by
  cases m with
  | integer m => cases n <;> simp [same, outline]
  | float x =>
    cases n with
    | integer n => simp [same, outline]
    | float y =>
      simp only [same, outline, Binary64.sameNumber, Bool.or_eq_true, Bool.and_eq_true,
        decide_eq_true_eq, Number.float.injEq]
      by_cases hx : x.rank = 0 <;> by_cases hy : y.rank = 0
      · simp [hx, hy]
      · have hne : x ≠ y := fun heq => hy (heq ▸ hx)
        have hzero : Binary64.zero false ≠ y := fun heq => hy (heq ▸ rfl)
        simp [hx, hy, hne, hzero]
      · have hne : x ≠ y := fun heq => hx (heq ▸ hy)
        have hzero : x ≠ Binary64.zero false := fun heq => hx (heq ▸ rfl)
        simp [hx, hy, hne, hzero]
      · simp [hx, hy]

namespace Value

/-- What is seen of a value without looking into it: that it is an array or an object, or the value
itself but for the sign of a zero. -/
def outline : Value → Value
  | .null => .null
  | .boolean b => .boolean b
  | .number n => .number n.outline
  | .string s => .string s
  | .array _ => .array []
  | .object _ => .object []

/-- What is seen at a place. -/
def seenAt? (value : Value) (place : Place) : Option Value :=
  (value.at? place).map outline

theorem seenAt?_nil (value : Value) : value.seenAt? [] = some value.outline := rfl

theorem seenAt?_cons (value : Value) (child : Child) (rest : Place) :
    value.seenAt? (child :: rest) = (value.child? child).bind fun inner => inner.seenAt? rest :=
  Option.map_bind

variable {first second : Value}

/-- The same is seen of two values if they look alike and the same is seen of each child. -/
theorem seenAt?_eq_iff : first.seenAt? = second.seenAt? ↔ first.outline = second.outline ∧
    ∀ child, Option.Rel (fun a b => a.seenAt? = b.seenAt?) (first.child? child)
      (second.child? child) := by
  constructor
  · intro h
    have houtline := congrFun h []
    rw [seenAt?_nil, seenAt?_nil, Option.some_inj] at houtline
    refine ⟨houtline, fun child => ?_⟩
    have hrest : ∀ rest, first.seenAt? (child :: rest) = second.seenAt? (child :: rest) :=
      fun rest => congrFun h (child :: rest)
    simp only [seenAt?_cons] at hrest
    -- that there is a child at all is seen at the child itself
    cases hfirst : first.child? child with
    | none =>
      cases hsecond : second.child? child with
      | none => exact .none
      | some b => simpa [hfirst, hsecond, seenAt?_nil] using hrest []
    | some a =>
      cases hsecond : second.child? child with
      | none => simpa [hfirst, hsecond, seenAt?_nil] using hrest []
      | some b => exact .some (funext fun rest => by simpa [hfirst, hsecond] using hrest rest)
  · rintro ⟨houtline, hchildren⟩
    funext place
    cases place with
    | nil => rw [seenAt?_nil, seenAt?_nil, houtline]
    | cons child rest =>
      have hchild := hchildren child
      rw [seenAt?_cons, seenAt?_cons]
      generalize first.child? child = a? at hchild ⊢
      generalize second.child? child = b? at hchild ⊢
      cases hchild with
      | none => rfl
      | some h => exact congrFun h rest

/-! ## The comparison -/

theorem sameItems_iff {xs ys : List Value} : sameItems xs ys = true ↔ List.Forall₂ Same xs ys := by
  induction xs generalizing ys with
  | nil => cases ys <;> simp [sameItems]
  | cons x rest ih => cases ys <;> simp [sameItems, ih]

theorem sameIn_iff {ms ns : Fields} : sameIn ms ns = true ↔
    ∀ member ∈ ms, ∃ other, ns.find? member.1 = some other ∧ member.2.Same other := by
  induction ms with
  | nil => simp [sameIn]
  | cons member rest ih =>
    obtain ⟨name, value⟩ := member
    rw [sameIn, Bool.and_eq_true, ih, List.forall_mem_cons, ← Members.find?]
    refine and_congr_left' ?_
    cases ns.find? name <;> simp

theorem same_array_iff {xs ys : List Value} :
    Same (.array xs) (.array ys) ↔ ∀ index : Nat, Option.Rel Same xs[index]? ys[index]? := by
  rw [Same, same, sameItems_iff, forall₂_iff_getElem?]

/-- Objects with different names are equal if and only if each name finds the same in both. -/
theorem same_object_iff {ms ns : Fields} (hms : ms.names.Nodup) (hns : ns.names.Nodup) :
    Same (.object ms) (.object ns) ↔ ∀ name, Option.Rel Same (ms.find? name) (ns.find? name) := by
  rw [Same, same, Bool.and_eq_true, decide_eq_true_eq, sameIn_iff]
  constructor
  · rintro ⟨hlength, hin⟩ name
    have hsub : ms.names ⊆ ns.names := by
      intro name hname
      obtain ⟨member, hmem, rfl⟩ := List.mem_map.1 hname
      obtain ⟨other, hother, -⟩ := hin member hmem
      exact Members.isSome_find?_iff.1 (by rw [hother, Option.isSome_some])
    -- the sizes are equal, so the second object has no further names
    have hperm : ms.names.Perm ns.names :=
      (List.subperm_of_subset hms hsub).perm_of_length_le (by simp [Members.names, hlength])
    cases hfirst : ms.find? name with
    | none =>
      have hnone : ns.find? name = none := by
        rw [Members.find?_eq_none_iff, ← hperm.mem_iff]
        exact Members.find?_eq_none_iff.1 hfirst
      rw [hnone]
      exact .none
    | some value =>
      exact rel_some_left_iff.2 (hin (name, value) (Members.mem_of_find? hfirst))
  · intro hrel
    have hlength := (Members.names_perm_of_rel hms hns hrel).length_eq
    refine ⟨by simpa [Members.names] using hlength, fun member hmem => ?_⟩
    have hmember := hrel member.1
    rw [(Members.find?_eq_some_iff hms).2 hmem] at hmember
    exact rel_some_left_iff.1 hmember

namespace Distinct

/-- Two values are equal if they look alike and each child is equal to the other's. -/
theorem same_iff_children (hfirst : first.Distinct) (hsecond : second.Distinct) :
    first.Same second ↔ first.outline = second.outline ∧
      ∀ child, Option.Rel Same (first.child? child) (second.child? child) := by
  cases first with
  | null | boolean | string => cases second <;> simp [Same, same, outline, child?]
  | number m => cases second <;> simp [Same, same, outline, child?, Number.same_iff_outline]
  | array xs =>
    cases second with
    | array ys =>
      rw [same_array_iff]
      refine ⟨fun h => ⟨rfl, fun child => ?_⟩, fun h index => h.2 (.item index)⟩
      cases child with
      | item index => exact h index
      | member name => exact .none
    | _ => simp [same, outline]
  | object ms =>
    cases second with
    | object ns =>
      rw [same_object_iff hfirst.names hsecond.names]
      refine ⟨fun h => ⟨rfl, fun child => ?_⟩, fun h name => h.2 (.member name)⟩
      cases child with
      | item index => exact .none
      | member name => exact h name
    | _ => simp [same, outline]

/-- **Two values are equal if and only if the same is seen at every place of both.** -/
theorem same_iff_seenAt? (hfirst : first.Distinct) (hsecond : second.Distinct) :
    first.Same second ↔ first.seenAt? = second.seenAt? := by
  induction hfirst generalizing second with
  | of_children hnames hchildren ih =>
    rw [same_iff_children (.of_children hnames hchildren) hsecond, seenAt?_eq_iff]
    refine and_congr_right' (forall_congr' fun child => rel_congr fun a b ha hb => ?_)
    exact ih child a ha (hsecond.of_child? hb)

end Distinct

/-! ## Rearranging -/

/-- A change that does not count: the members of one object, at any depth, are put in another
order, or one zero, at any depth, gets another sign. -/
inductive Rearrangement : Value → Value → Prop
  | members {ms ns : Fields} (h : ms.Perm ns) : Rearrangement (.object ms) (.object ns)
  | zero (negative other : Bool) :
      Rearrangement (.number (.float (.zero negative))) (.number (.float (.zero other)))
  | item (before after : List Value) {v w : Value} (h : Rearrangement v w) :
      Rearrangement (.array (before ++ v :: after)) (.array (before ++ w :: after))
  | member (before after : Fields) (name : String) {v w : Value} (h : Rearrangement v w) :
      Rearrangement (.object (before ++ (name, v) :: after)) (.object (before ++ (name, w) :: after))

/-- The second value is the first after any number of such changes. -/
def Rearranged : Value → Value → Prop :=
  Relation.ReflTransGen Rearrangement

namespace Rearrangement

theorem outline_eq (h : Rearrangement first second) : first.outline = second.outline := by
  cases h <;> rfl

/-- All that a change can do to a child: it stays what it is, or it changes itself. -/
theorem rel_child? (h : Rearrangement first second) (hfirst : first.Distinct) (child : Child) :
    Option.Rel (fun a b => a = b ∨ Rearrangement a b) (first.child? child)
      (second.child? child) := by
  have hstays : ∀ a : Value, a = a ∨ Rearrangement a a := fun a => .inl rfl
  cases h with
  | members hperm =>
    cases child with
    | item index => exact .none
    | member name => exact rel_of_eq hstays (lookup_eq_of_perm hperm hfirst.names name)
  | zero negative other => exact .none
  | item before after h =>
    cases child with
    | item index =>
      exact forall₂_iff_getElem?.1 (forall₂_middle hstays (.inr h) before after) index
    | member name => exact .none
  | member before after other h =>
    cases child with
    | item index => exact .none
    | member name =>
      simp only [child?, Members.find?_append, Members.find?_cons]
      refine rel_or (rel_of_eq hstays rfl) ?_
      split
      · exact .some (.inr h)
      · exact rel_of_eq hstays rfl

theorem names_nodup {ms ns : Fields} (h : Rearrangement (.object ms) (.object ns))
    (hms : ms.names.Nodup) : ns.names.Nodup := by
  cases h with
  | members hperm => exact (hperm.map Prod.fst).nodup hms
  | member before after name h => simpa [Members.names] using hms

/-- A change leaves different names different. -/
theorem distinct (h : Rearrangement first second) (hfirst : first.Distinct) : second.Distinct := by
  induction hfirst generalizing second with
  | @of_children first hnames hchildren ih =>
    have hrel := h.rel_child? (.of_children hnames hchildren)
    refine .of_children ?_ fun child inner hinner => ?_
    · rintro ns rfl
      cases first with
      | object ms => exact h.names_nodup (hnames ms rfl)
      | _ => cases h
    · have hchild := hrel child
      rw [hinner, rel_some_right_iff] at hchild
      obtain ⟨outer, houter, rfl | h⟩ := hchild
      · exact hchildren child outer houter
      · exact ih child outer houter h

/-- A change is not seen at any place. -/
theorem seenAt?_eq (h : Rearrangement first second) (hfirst : first.Distinct) :
    first.seenAt? = second.seenAt? := by
  induction hfirst generalizing second with
  | of_children hnames hchildren ih =>
    have hrel := h.rel_child? (.of_children hnames hchildren)
    refine seenAt?_eq_iff.2 ⟨h.outline_eq, fun child => rel_imp (hrel child) ?_⟩
    rintro a b ha - (rfl | h)
    · rfl
    · exact ih child a ha h

end Rearrangement

namespace Rearranged

/-- No number of changes is seen at any place. -/
theorem seenAt?_eq (h : Rearranged first second) (hfirst : first.Distinct) :
    second.Distinct ∧ first.seenAt? = second.seenAt? := by
  induction h with
  | refl => exact ⟨hfirst, rfl⟩
  | tail _ hlast ih =>
    obtain ⟨hbefore, heq⟩ := ih
    exact ⟨hlast.distinct hbefore, heq.trans (hlast.seenAt?_eq hbefore)⟩

theorem item (h : Rearranged first second) (before after : List Value) :
    Rearranged (.array (before ++ first :: after)) (.array (before ++ second :: after)) :=
  Relation.ReflTransGen.lift (fun v => Value.array (before ++ v :: after))
    (fun _ _ => .item before after) _ _ h

theorem member (h : Rearranged first second) (before after : Fields) (name : String) :
    Rearranged (.object (before ++ (name, first) :: after))
      (.object (before ++ (name, second) :: after)) :=
  Relation.ReflTransGen.lift (fun v => Value.object (before ++ (name, v) :: after))
    (fun _ _ => .member before after name) _ _ h

/-- What is in a list is changed one after the other, behind what already is. -/
theorem each {α : Type} {r : α → α → Prop} (whole : List α → Value)
    (hone : ∀ before after a b, r a b →
      Rearranged (whole (before ++ a :: after)) (whole (before ++ b :: after)))
    {xs ys : List α} (h : List.Forall₂ r xs ys) (before : List α) :
    Rearranged (whole (before ++ xs)) (whole (before ++ ys)) := by
  induction h generalizing before with
  | nil => exact .refl
  | @cons x y xs ys hfirst _ ih =>
    have hrest := ih (before ++ [y])
    rw [List.append_assoc, List.append_assoc] at hrest
    exact (hone before xs x y hfirst).trans hrest

theorem items {xs ys : List Value} (h : List.Forall₂ Rearranged xs ys) :
    Rearranged (.array xs) (.array ys) :=
  each Value.array (fun before after _ _ hitem => hitem.item before after) h []

theorem values {ms ns : Fields}
    (h : List.Forall₂ (fun a b => a.1 = b.1 ∧ Rearranged a.2 b.2) ms ns) :
    Rearranged (.object ms) (.object ns) := by
  refine each Value.object ?_ h []
  rintro before after ⟨name, v⟩ ⟨_, w⟩ ⟨rfl, hvalue⟩
  exact hvalue.member before after name

theorem of_number {m n : Number} (h : m.same n = true) : Rearranged (.number m) (.number n) := by
  cases m with
  | integer m =>
    cases n with
    | integer n =>
      obtain rfl : m = n := of_decide_eq_true h
      exact .refl
    | float y => cases h
  | float x =>
    cases n with
    | integer n => cases h
    | float y =>
      rw [Number.same, Binary64.sameNumber, Bool.or_eq_true, Bool.and_eq_true, decide_eq_true_eq,
        decide_eq_true_eq, decide_eq_true_eq] at h
      rcases h with rfl | ⟨hx, hy⟩
      · exact .refl
      · obtain ⟨negative, rank, finite⟩ := x
        obtain ⟨other, rank', finite'⟩ := y
        subst hx hy
        exact .single (.zero negative other)

end Rearranged

namespace Distinct

/-- What is equal can be rearranged: first each child by itself, and then the members as a
whole. -/
theorem rearranged_of_same (hfirst : first.Distinct) (hsecond : second.Distinct)
    (h : first.Same second) : first.Rearranged second := by
  induction hfirst generalizing second with
  | @of_children first hnames hchildren ih =>
    have hfirst : first.Distinct := .of_children hnames hchildren
    obtain ⟨houtline, hsame⟩ := (hfirst.same_iff_children hsecond).1 h
    have hrel : ∀ child, Option.Rel Rearranged (first.child? child) (second.child? child) := by
      intro child
      refine rel_imp (hsame child) fun a b ha hb hab => ?_
      exact ih child a ha (hsecond.of_child? hb) hab
    cases first with
    | null | boolean | string =>
      cases second <;> cases houtline
      exact .refl
    | number m =>
      cases second with
      | number n => exact .of_number (by simpa [Same, same] using h)
      | _ => cases houtline
    | array xs =>
      cases second with
      | array ys => exact .items (forall₂_iff_getElem?.2 fun index => hrel (.item index))
      | _ => cases houtline
    | object ms =>
      cases second with
      | object ns =>
        obtain ⟨ordered, hvalues, hperm⟩ := Members.exists_perm_of_rel hfirst.names hsecond.names
          fun name => hrel (.member name)
        exact (Rearranged.values hvalues).tail (.members hperm)
      | _ => cases houtline

/-- **Two values are equal if and only if one can be rearranged into the other.** -/
theorem same_iff_rearranged (hfirst : first.Distinct) (hsecond : second.Distinct) :
    first.Same second ↔ first.Rearranged second := by
  refine ⟨hfirst.rearranged_of_same hsecond, fun h => ?_⟩
  exact (hfirst.same_iff_seenAt? hsecond).2 (h.seenAt?_eq hfirst).2

end Distinct

/-- With a name that occurs twice the comparison from one side is not symmetric. -/
example : Same (.object [("a", .null), ("a", .null)]) (.object [("a", .null), ("b", .null)]) ∧
    ¬Same (.object [("a", .null), ("b", .null)]) (.object [("a", .null), ("a", .null)]) := by
  decide

end Value
end Json
end OpcodeTable
