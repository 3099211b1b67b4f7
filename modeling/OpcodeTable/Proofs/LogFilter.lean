import Mathlib.Data.List.Forall2
import Mathlib.Data.Option.Defs
import OpcodeTable.Log.Filter
import OpcodeTable.Proofs.Splitting

/-!
# What a filter admits

One filter is raised to another one if it has the same directives, in the same order, with
thresholds that are not lower, and the same pattern.  The directive that decides on a line is then
found at the same place in both, so every line that the first filter admits is admitted by the
second one: raising a filter only adds lines.

A filter is raised by a higher level in its text, whether that stands there by itself or among other
items.

## What is here

* `Filter.Raised`, its step `Directive.Raised.decisive` and `Filter.Raised.sublist`.
* `Filter.parse_of_ofName?`, what the name of a level is read as, and `Filter.admits_of_trace`.
* `TextRaised` for two texts, and `TextRaised.parse`, by which the filters are raised with them.
-/

set_option autoImplicit false

namespace OpcodeTable

namespace Log

/-! ## Raising a filter -/

/-- How many levels are shown under a threshold. -/
def Threshold.rank : Threshold → Nat
  | none => 0
  | some least => least.rank

theorem Threshold.shows_iff (threshold : Threshold) (level : Level) :
    threshold.shows level = true ↔ level.rank ≤ threshold.rank := by
  cases threshold with
  | none => cases level <;> simp [shows, rank, Level.rank]
  | some least => simp [shows, rank]

/-- The second directive is for the same parts as the first one and shows at least as much. -/
structure Directive.Raised (low high : Directive) : Prop where
  path : low.path = high.path
  threshold : low.threshold.rank ≤ high.threshold.rank

/-- The second filter is the first one with thresholds that are not lower. -/
structure Filter.Raised (low high : Filter) : Prop where
  directives : List.Forall₂ Directive.Raised low.directives high.directives
  pattern : low.pattern = high.pattern

theorem Directive.Raised.covers {low high : Directive} (h : low.Raised high) (origin : Origin) :
    low.covers origin = high.covers origin := by
  rw [Directive.covers, Directive.covers, h.path]

theorem Directive.Raised.length {low high : Directive} (h : low.Raised high) :
    low.length = high.length := by
  rw [Directive.length, Directive.length, h.path]

/-- Which of two directives decides depends on their paths only. -/
theorem Directive.Raised.decisive {low high : Directive} (h : low.Raised high) (origin : Origin)
    {lowEarlier highEarlier : Option Directive}
    (hearlier : Option.Rel Directive.Raised lowEarlier highEarlier) :
    Option.Rel Directive.Raised (Directive.decisive origin lowEarlier low)
      (Directive.decisive origin highEarlier high) := by
  rw [Directive.decisive.eq_def, Directive.decisive.eq_def, h.covers origin]
  split
  · exact hearlier
  · cases hearlier with
    | none => exact .some h
    | some hboth =>
      dsimp only
      rw [h.length, hboth.length]
      split
      · exact .some h
      · exact .some hboth

theorem Directive.Raised.foldl_decisive {low high : List Directive}
    (h : List.Forall₂ Directive.Raised low high) (origin : Origin)
    {lowEarlier highEarlier : Option Directive}
    (hearlier : Option.Rel Directive.Raised lowEarlier highEarlier) :
    Option.Rel Directive.Raised (low.foldl (Directive.decisive origin) lowEarlier)
      (high.foldl (Directive.decisive origin) highEarlier) := by
  induction h generalizing lowEarlier highEarlier with
  | nil => exact hearlier
  | cons hhead _ ih => exact ih (hhead.decisive origin hearlier)

theorem Filter.Raised.lets {low high : Filter} (h : low.Raised high) {event : Event}
    (hlets : low.lets event = true) : high.lets event = true := by
  have hdecisive := Directive.Raised.foldl_decisive h.directives event.origin .none
  rw [Filter.lets] at hlets ⊢
  generalize low.directives.foldl _ _ = lowDecides at hdecisive hlets
  generalize high.directives.foldl _ _ = highDecides at hdecisive ⊢
  cases hdecisive with
  | none => cases hlets
  | some hraised =>
    rw [Threshold.shows_iff] at hlets ⊢
    exact Nat.le_trans hlets hraised.threshold

/-- **Raising a filter only adds lines.** -/
theorem Filter.Raised.admits {low high : Filter} (h : low.Raised high) {event : Event}
    (hadmits : low.admits event = true) : high.admits event = true := by
  rw [Filter.admits, Bool.and_eq_true] at hadmits ⊢
  exact ⟨h.lets hadmits.1, h.pattern ▸ hadmits.2⟩

/-- The lines that are there before a filter is raised stay, in their order. -/
theorem Filter.Raised.sublist {low high : Filter} (h : low.Raised high) (events : List Event) :
    (events.filter low.admits).Sublist (events.filter high.admits) :=
  List.monotone_filter_right events fun _ => h.admits

/-! ## Names of levels -/

theorem isAlpha_of_isLower_toLower {c : Char} (h : c.toLower.isLower = true) :
    c.isAlpha = true := by
  by_cases hupper : c.isUpper = true
  · exact Bool.or_eq_true_iff.2 (.inl hupper)
  · have hsame : c.toLower = c := dif_neg fun hrange => hupper (decide_eq_true hrange)
    rw [hsame] at h
    exact Bool.or_eq_true_iff.2 (.inr h)

/-- Letters are told from all else by their numbers. -/
theorem toNat_of_isAlpha {c : Char} (h : c.isAlpha = true) :
    65 ≤ c.toNat ∧ c.toNat ≤ 90 ∨ 97 ≤ c.toNat ∧ c.toNat ≤ 122 := by
  obtain hupper | hlower := Bool.or_eq_true_iff.1 h
  · exact .inl (of_decide_eq_true hupper)
  · obtain ⟨hfrom, hto⟩ := Bool.and_eq_true_iff.1 hlower
    exact .inr ⟨of_decide_eq_true hfrom, of_decide_eq_true hto⟩

/-- A text is put into lower case character by character. -/
theorem toLower_eq {name word : String} (h : name.toList.map Char.toLower = word.toList) :
    name.toLower = word :=
  String.toList_inj.1 (String.toList_map.trans h)

theorem all_isLower_of_ofName? {name : String} {threshold : Threshold}
    (h : Threshold.ofName? name = some threshold) :
    name.toLower.toList.all Char.isLower = true := by
  rw [Threshold.ofName?] at h
  split at h <;> first
    | next hname =>
      rw [hname]
      decide
    | cases h

/-- The name of a level consists of letters. -/
theorem isAlpha_of_ofName? {name : String} {threshold : Threshold}
    (h : Threshold.ofName? name = some threshold) {c : Char} (hc : c ∈ name.toList) :
    c.isAlpha = true := by
  have hletters : name.toLower.toList = name.toList.map Char.toLower := String.toList_map
  have hlower : c.toLower ∈ name.toLower.toList := by
    rw [hletters]
    exact List.mem_map_of_mem hc
  exact isAlpha_of_isLower_toLower (List.all_eq_true.1 (all_isLower_of_ofName? h) _ hlower)

theorem splitOn_of_ofName? {name : String} {threshold : Threshold}
    (h : Threshold.ofName? name = some threshold) (separator : Char)
    (hseparator : separator.isAlpha = false) :
    name.splitOn (String.ofList [separator]) = [name] := by
  refine splitOn_of_not_mem fun hmem => ?_
  rw [isAlpha_of_ofName? h hmem] at hseparator
  cases hseparator

theorem trimSpace_of_ofName? {name : String} {threshold : Threshold}
    (h : Threshold.ofName? name = some threshold) : trimSpace name = name := by
  refine trimSpace_of_forall fun c hc => ?_
  have hletter := toNat_of_isAlpha (isAlpha_of_ofName? h hc)
  simp only [isSpace, Bool.or_eq_false_iff, Bool.and_eq_false_iff, decide_eq_false_iff_not]
  omega

theorem ne_empty_of_ofName? {name : String} {threshold : Threshold}
    (h : Threshold.ofName? name = some threshold) : name ≠ "" := by
  rintro rfl
  have hlower : "".toLower = "" := toLower_eq rfl
  rw [Threshold.ofName?, hlower] at h
  cases h

namespace Filter

theorem directive_of_ofName? {name : String} {threshold : Threshold}
    (h : Threshold.ofName? name = some threshold) : directive name = .ok ⟨none, threshold⟩ := by
  have hequals : name.splitOn "=" = [name] := splitOn_of_ofName? h '=' rfl
  simp only [directive, hequals, h]

/-- The items between the commas of a filter. -/
def items (text : String) : List String :=
  ((text.splitOn ",").map trimSpace).filter (· ≠ "")

theorem items_of_ofName? {name : String} {threshold : Threshold}
    (h : Threshold.ofName? name = some threshold) : items name = [name] := by
  have hcomma : name.splitOn "," = [name] := splitOn_of_ofName? h ',' rfl
  rw [items, hcomma, List.map_singleton, trimSpace_of_ofName? h]
  simp [ne_empty_of_ofName? h]

/-- The name of a level is read as the threshold of all parts. -/
theorem parse_of_ofName? {name : String} {threshold : Threshold}
    (h : Threshold.ofName? name = some threshold) :
    parse name = ({ directives := [⟨none, threshold⟩] }, []) := by
  have hslash : name.splitOn "/" = [name] := splitOn_of_ofName? h '/' rfl
  have hitems : ((name.splitOn ",").map trimSpace).filter (· ≠ "") = [name] := items_of_ofName? h
  simp only [parse, hslash, parseDirectives, hitems, List.map_singleton, directive_of_ofName? h]
  rfl

end Filter

/-! ## Raising a level in the text of a filter -/

/-- The items are the same, or they are the names of two levels, the second one not lower. -/
def ItemRaised (low high : String) : Prop :=
  low = high ∨ ∃ lowest highest : Threshold, Threshold.ofName? low = some lowest ∧
    Threshold.ofName? high = some highest ∧ lowest.rank ≤ highest.rank

/-- The texts are the same but for levels among their items, which are not lower in the second
one. -/
def TextRaised (low high : String) : Prop :=
  ∃ lowFirst highFirst rest, low.splitOn "/" = lowFirst :: rest ∧
    high.splitOn "/" = highFirst :: rest ∧
    List.Forall₂ ItemRaised (Filter.items lowFirst) (Filter.items highFirst)

/-- What is read of the first item, raised, is what is read of the second one. -/
inductive ReadRaised : Except Filter.Problem Directive → Except Filter.Problem Directive → Prop
  | ok {low high : Directive} (h : low.Raised high) : ReadRaised (.ok low) (.ok high)
  | error (problem : Filter.Problem) : ReadRaised (.error problem) (.error problem)

theorem Directive.Raised.refl (directive : Directive) : directive.Raised directive :=
  ⟨rfl, Nat.le_refl _⟩

theorem ItemRaised.directive {low high : String} (h : ItemRaised low high) :
    ReadRaised (Filter.directive low) (Filter.directive high) := by
  obtain rfl | ⟨lowest, highest, hlow, hhigh, hle⟩ := h
  · cases Filter.directive low with
    | error problem => exact .error problem
    | ok directive => exact .ok (.refl directive)
  · rw [Filter.directive_of_ofName? hlow, Filter.directive_of_ofName? hhigh]
    exact .ok ⟨rfl, hle⟩

theorem Directive.Raised.putInto {low high : Directive} (h : low.Raised high)
    {lows highs : List Directive} (hrest : List.Forall₂ Directive.Raised lows highs) :
    List.Forall₂ Directive.Raised (low.putInto lows) (high.putInto highs) := by
  induction hrest with
  | nil => exact .cons h .nil
  | cons hhead htail ih =>
    rw [Directive.putInto, Directive.putInto, hhead.path, h.path]
    split
    · exact .cons h htail
    · exact .cons hhead ih

theorem ReadRaised.foldl_add {lowReads highReads : List (Except Filter.Problem Directive)}
    (h : List.Forall₂ ReadRaised lowReads highReads) {lows highs : List Directive}
    (hbefore : List.Forall₂ Directive.Raised lows highs) :
    List.Forall₂ Directive.Raised (lowReads.foldl Filter.add lows)
      (highReads.foldl Filter.add highs) := by
  induction h generalizing lows highs with
  | nil => exact hbefore
  | cons hread _ ih =>
    cases hread with
    | ok hraised => exact ih (hraised.putInto hbefore)
    | error problem => exact ih hbefore

theorem parseDirectives_raised {low high : String}
    (h : List.Forall₂ ItemRaised (Filter.items low) (Filter.items high)) :
    List.Forall₂ Directive.Raised (Filter.parseDirectives low).1
      (Filter.parseDirectives high).1 := by
  have hreads : List.Forall₂ ReadRaised ((Filter.items low).map Filter.directive)
      ((Filter.items high).map Filter.directive) :=
    List.forall₂_map_left_iff.2 (List.forall₂_map_right_iff.2 (h.imp fun _ _ => ItemRaised.directive))
  have hadded := ReadRaised.foldl_add hreads .nil
  have hfirst (text : String) : (Filter.parseDirectives text).1 =
      let directives := ((Filter.items text).map Filter.directive).foldl Filter.add []
      if directives = [] then Filter.severe else directives :=
    rfl
  rw [hfirst, hfirst]
  dsimp only
  generalize ((Filter.items low).map Filter.directive).foldl Filter.add [] = lows at hadded ⊢
  generalize ((Filter.items high).map Filter.directive).foldl Filter.add [] = highs at hadded ⊢
  cases hadded with
  | nil => exact .cons (.refl _) .nil
  | cons hhead htail => exact .cons hhead htail

/-- Raising a level in the text of a filter raises the filter. -/
theorem TextRaised.parse {low high : String} (h : TextRaised low high) :
    (Filter.parse low).1.Raised (Filter.parse high).1 := by
  obtain ⟨lowFirst, highFirst, rest, hlow, hhigh, hitems⟩ := h
  have hdirectives := parseDirectives_raised hitems
  rw [Filter.parse, Filter.parse, hlow, hhigh]
  match rest with
  | [] => exact ⟨hdirectives, rfl⟩
  | [second] => exact ⟨hdirectives, rfl⟩
  | second :: third :: more => exact ⟨.cons (.refl _) .nil, rfl⟩

theorem textRaised_of_ofName? {low high : String} {lowest highest : Threshold}
    (hlow : Threshold.ofName? low = some lowest) (hhigh : Threshold.ofName? high = some highest)
    (hle : lowest.rank ≤ highest.rank) : TextRaised low high := by
  refine ⟨low, high, [], splitOn_of_ofName? hlow '/' rfl, splitOn_of_ofName? hhigh '/' rfl, ?_⟩
  rw [Filter.items_of_ofName? hlow, Filter.items_of_ofName? hhigh]
  exact .cons (.inr ⟨lowest, highest, hlow, hhigh, hle⟩) .nil

/-- The lowest level of all admits every line. -/
theorem Filter.admits_of_trace {name : String}
    (h : Threshold.ofName? name = some (some .trace)) (event : Event) :
    (parse name).1.admits event = true := by
  have hrank : event.level.rank ≤ Level.trace.rank := by cases event.level <;> decide
  rw [parse_of_ofName? h, admits, Bool.and_eq_true]
  exact ⟨(Threshold.shows_iff (some .trace) event.level).2 hrank, rfl⟩

end Log
end OpcodeTable
