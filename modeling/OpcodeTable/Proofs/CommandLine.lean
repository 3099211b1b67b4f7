import Mathlib.Data.List.Induction
import OpcodeTable.CommandLine
import OpcodeTable.Proofs.FileSystem
import OpcodeTable.Proofs.Json.Members

/-!
# The command lines that are understood

A command line is understood if it is made up of options, one after the other, each written in one
of its forms and none of them given twice.  That is said here without a reader: an `Item` is an
option as it is written, and `IsLine` says of items that they may stand on one line.  The reader,
which looks at one word at a time and puts off the check of a value that stands by itself, takes
exactly the lines of such items, and since all that counts of an item is what it asks for, neither
the order of the options nor the form of each makes a difference.

## What is here

* `Form.of_eq_plain_iff` and the other lemmas on the form of a word, by which words are told apart.
* `Given.read_of_assign` and `Given.read_of_refused`, by which it does not matter when a value is
  checked.
* `Given.read_item` and `Given.exists_items`, that the items of a line are read one by one, and that
  every line that is read has items.
* `Given.addAll_eq_ok_iff`, which items may follow each other, by induction from the last one on.
* `exists_assign_standard`, by which an option may as well be given its standard value.
* `parse_eq_ok_iff_isLine`, the lines that are understood and what they ask for.
-/

set_option autoImplicit false

namespace OpcodeTable
namespace CommandLine

/-! ## Options as they are written -/

/-- An option as it is written. -/
inductive Item where
  | verify
  /-- A name and a value in one word. -/
  | joined (setting : Setting) (value : String)
  /-- A name and a value in two words. -/
  | parted (setting : Setting) (value : String)
deriving DecidableEq

namespace Item

/-- The words of an item. -/
def words : Item → List String
  | .verify => ["--verify"]
  | .joined setting value => ["--" ++ setting.name ++ "=" ++ value]
  | .parted setting value => ["--" ++ setting.name, value]

/-- What an item gives a value, if it does. -/
def setting? : Item → Option (Setting × String)
  | .verify => none
  | .joined setting value | .parted setting value => some (setting, value)

/-- The name of the option. -/
def name (item : Item) : String :=
  item.setting?.elim "verify" fun setting => setting.1.name

/-- The item can be told from what follows it: a value by itself is a hyphen, or it does not begin
with one. -/
def IsPlain : Item → Prop
  | .parted _ value => value = "-" ∨ value.toList.head? ≠ some '-'
  | _ => True

/-- The value is one that the option can have. -/
def IsAllowed (item : Item) : Prop :=
  match item.setting? with
  | some (.input, value) | some (.output, value) | some (.logPath, value) => value ≠ ""
  | some (.duplicates, value) => value = "reject" ∨ value = "overwrite"
  | _ => True

end Item

/-- The items may stand on one line. -/
structure IsLine (items : List Item) : Prop where
  plain : ∀ item ∈ items, item.IsPlain
  allowed : ∀ item ∈ items, item.IsAllowed
  distinct : (items.map Item.name).Nodup

/-- The values that items give. -/
def settings (items : List Item) : List (Setting × String) :=
  items.filterMap Item.setting?

/-- What the items of a line ask for: the values that they give, and the standard ones for the other
options. -/
def argumentsOf (items : List Item) : Arguments :=
  let value? (setting : Setting) : Option String := (settings items).lookup setting
  { job :=
      { input := (value? .input).getD "opcodes.json"
        output := (value? .output).getD "newcodes.json"
        options :=
          { opcodeField := (value? .opcodeField).getD "opcode"
            prefixField := (value? .prefixField).getD "prefix"
            duplicates := if value? .duplicates = some "overwrite" then .overwrite else .reject }
        verify := .verify ∈ items }
    logPath := value? .logPath }

/-! ## Forms of words -/

namespace Form

theorem ofLong_ne_plain (rest : List Char) : ofLong rest ≠ .plain := by
  cases rest with
  | nil => simp [ofLong]
  | cons c more =>
    rw [ofLong]
    split <;> simp

theorem of_eq_plain_iff {word : String} :
    Form.of word = .plain ↔ word = "-" ∨ word.toList.head? ≠ some '-' := by
  rw [← String.toList_inj, Form.of]
  match word.toList with
  | [] => simp
  | c :: rest =>
    by_cases hc : c = '-'
    · subst hc
      match rest with
      | [] => simp
      | d :: others =>
        by_cases hd : d = '-'
        · simp [hd, ofLong_ne_plain]
        · simp [hd]
    · simp [hc]

/-- A word that is a divider or long begins with two hyphens. -/
theorem exists_ofLong (word : String) (h : Form.of word ≠ .plain)
    (hlong : ∀ letter, Form.of word ≠ .short letter) :
    ∃ rest, word.toList = '-' :: '-' :: rest ∧ Form.of word = ofLong rest := by
  rw [Form.of] at h hlong ⊢
  match hword : word.toList with
  | [] => simp [hword] at h
  | c :: rest =>
    by_cases hc : c = '-'
    · subst hc
      match rest with
      | [] => simp [hword] at h
      | d :: others =>
        by_cases hd : d = '-'
        · exact ⟨others, by rw [hd], by simp [hd]⟩
        · simp [hword, hd] at hlong
    · simp [hword, hc] at h

theorem eq_of_divider {word : String} (h : Form.of word = .divider) : word = "--" := by
  obtain ⟨rest, hword, hform⟩ := exists_ofLong word (by simp [h]) (by simp [h])
  rw [h] at hform
  cases rest with
  | nil => exact String.toList_inj.1 hword
  | cons c more =>
    rw [ofLong] at hform
    split at hform <;> cases hform

/-- A name goes up to the first equals sign, and a value begins behind it. -/
theorem eq_of_long {word name : String} {value : Option String}
    (h : Form.of word = .long name value) :
    word = "--" ++ name ++ value.elim "" fun text => "=" ++ text := by
  obtain ⟨rest, hword, hform⟩ := exists_ofLong word (by simp [h]) (by simp [h])
  rw [h] at hform
  cases rest with
  | nil => cases hform
  | cons c more =>
    rw [ofLong] at hform
    rw [← String.toList_inj, hword]
    have hsplit : (c :: more).takeWhile (· ≠ '=') ++ (c :: more).dropWhile (· ≠ '=') = c :: more :=
      List.takeWhile_append_dropWhile
    generalize (c :: more).takeWhile (· ≠ '=') = front at hsplit hform
    split at hform
    · next hnone =>
      cases hform
      rw [hnone, List.append_nil] at hsplit
      simp [hsplit]
    · next d text hsome =>
      cases hform
      have hhead := List.head?_dropWhile_not (· ≠ '=') (c :: more)
      rw [hsome] at hhead
      have hd : d = '=' := by simpa using hhead
      rw [hsome, hd] at hsplit
      simp [← hsplit]

theorem of_verify : Form.of "--verify" = .long "verify" none := by
  rfl

theorem of_name (setting : Setting) :
    Form.of ("--" ++ setting.name) = .long setting.name none := by
  cases setting <;> rfl

theorem of_joined (setting : Setting) (value : String) :
    Form.of ("--" ++ setting.name ++ "=" ++ value) = .long setting.name (some value) := by
  rw [Form.of, String.toList_append]
  cases setting <;> simp [Setting.name, ofLong]

end Form

theorem Setting.ofName?_name (setting : Setting) :
    Setting.ofName? setting.name = some setting := by
  cases setting <;> rfl

theorem Setting.name_of_ofName? {name : String} {setting : Setting}
    (h : Setting.ofName? name = some setting) : setting.name = name := by
  simpa using List.find?_some h

/-- Only the two flags that ask for a text have letters. -/
theorem Flag.ofLetter?_eq_some {letter : Char} {flag : Flag}
    (h : Flag.ofLetter? letter = some flag) : flag = .help ∨ flag = .version := by
  rw [Flag.ofLetter?] at h
  split at h
  · exact .inl (Option.some.inj h).symm
  · split at h
    · exact .inr (Option.some.inj h).symm
    · cases h

theorem Flag.ofName?_verify {name : String} (h : Flag.ofName? name = some .verify) :
    name = "verify" := by
  rw [Flag.ofName?] at h
  split at h
  · next heq => exact heq
  · split at h
    · cases h
    · split at h <;> cases h

/-! ## Reading item by item -/

namespace Given

variable {given next result : Given}

/-- A value by itself may as well be checked at once, if it passes. -/
theorem read_of_assign {setting : Setting} {value : String}
    (h : given.assign setting value = .ok next) (words : List String) :
    given.read (some (setting, some value)) words = next.read none words := by
  cases words with
  | nil => exact h
  | cons word rest =>
    rw [read.eq_def, read.eq_def]
    dsimp only
    cases Form.of word with
    | divider | short | long => simp only [settle, h]
    | plain => rfl

/-- If it does not pass, nothing that follows it helps. -/
theorem read_of_refused {setting : Setting} {value : String} {refusal : Refusal}
    (h : given.assign setting value = .error refusal) (words : List String) :
    ∃ other, given.read (some (setting, some value)) words = .error other := by
  cases words with
  | nil => exact ⟨refusal, h⟩
  | cons word rest =>
    rw [read.eq_def]
    simp only [settle, h]
    cases Form.of word with
    | plain => exact ⟨_, rfl⟩
    | divider | short | long =>
      dsimp only
      split <;> exact ⟨_, rfl⟩

/-- Does what an item asks for. -/
def add (given : Given) (item : Item) : Except Refusal Given :=
  match item.setting? with
  | none => given.raise .verify
  | some (setting, value) => given.assign setting value

/-- Does what items ask for, one after the other. -/
def addAll (given : Given) (items : List Item) : Except Refusal Given :=
  items.foldlM add given

/-- A name by itself takes the next word for its value. -/
theorem read_parted {setting : Setting} {value : String} (hplain : Form.of value = .plain)
    (rest : List String) :
    given.read none (("--" ++ setting.name) :: value :: rest) = .ok result ↔
      ∃ next, given.assign setting value = .ok next ∧ next.read none rest = .ok result := by
  have hname : given.read none (("--" ++ setting.name) :: value :: rest) =
      given.read (some (setting, some value)) rest := by
    rw [read.eq_def]
    simp only [Form.of_name, Setting.ofName?_name]
    change given.read (some (setting, none)) (value :: rest) = _
    rw [read.eq_def]
    simp only [hplain]
  rw [hname]
  cases hassign : given.assign setting value with
  | ok next => simp [read_of_assign hassign]
  | error refusal =>
    obtain ⟨other, hother⟩ := read_of_refused hassign rest
    simp [hother]

/-- The first item is read, and then the others. -/
theorem read_item {item : Item} (hplain : item.IsPlain) (rest : List String) :
    given.read none (item.words ++ rest) = .ok result ↔
      ∃ next, given.add item = .ok next ∧ next.read none rest = .ok result := by
  cases item with
  | verify =>
    change given.read none ("--verify" :: rest) = _ ↔ _
    rw [read.eq_def]
    simp only [Form.of_verify]
    change (given.raise .verify >>= fun next => next.read none rest) = _ ↔ _
    exact bind_eq_ok_iff
  | joined setting value =>
    change given.read none (("--" ++ setting.name ++ "=" ++ value) :: rest) = _ ↔ _
    rw [read.eq_def]
    simp only [Form.of_joined, Setting.ofName?_name]
    change (given.assign setting value >>= fun next => next.read none rest) = _ ↔ _
    exact bind_eq_ok_iff
  | parted setting value => exact read_parted (Form.of_eq_plain_iff.2 hplain) rest

/-- A name by itself is followed by its value. -/
theorem exists_value {setting : Setting} {words : List String}
    (h : given.read (some (setting, none)) words = .ok result) :
    ∃ value rest next, words = value :: rest ∧ Form.of value = .plain ∧
      given.assign setting value = .ok next ∧ next.read none rest = .ok result := by
  cases words with
  | nil => cases h
  | cons value rest =>
    rw [read.eq_def] at h
    cases hvalue : Form.of value with
    | divider | short | long =>
      simp only [hvalue] at h
      split at h <;> cases h
    | plain =>
      simp only [hvalue] at h
      cases hassign : given.assign setting value with
      | error refusal =>
        obtain ⟨other, hother⟩ := read_of_refused hassign rest
        rw [hother] at h
        cases h
      | ok next =>
        rw [read_of_assign hassign] at h
        exact ⟨value, rest, next, rfl, hvalue, hassign, h⟩

/-- What is read is at its end, or it begins with an item. -/
theorem read_cases {words : List String} (h : given.read none words = .ok result) :
    (words = [] ∨ words = ["--"]) ∧ given = result ∨
      ∃ item rest next, item.IsPlain ∧ words = item.words ++ rest ∧
        given.add item = .ok next ∧ next.read none rest = .ok result := by
  cases words with
  | nil => exact .inl ⟨.inl rfl, Except.ok.inj h⟩
  | cons word rest =>
    rw [read.eq_def] at h
    cases hform : Form.of word with
    | divider =>
      simp only [hform] at h
      split at h
      · next hrest =>
        rw [Form.eq_of_divider hform, hrest]
        exact .inl ⟨.inr rfl, Except.ok.inj h⟩
      · cases h
    | plain =>
      simp only [hform] at h
      cases h
    | short letter =>
      simp only [hform] at h
      split at h
      · cases h
      · next flag hflag =>
        rcases Flag.ofLetter?_eq_some hflag with rfl | rfl <;> cases h
    | long name value =>
      have hword := Form.eq_of_long hform
      simp only [hform] at h
      refine .inr ?_
      split at h
      · next setting hsetting =>
        obtain rfl := Setting.name_of_ofName? hsetting
        obtain rfl : word = "--" ++ setting.name := by simpa using hword
        obtain ⟨value, more, next, rfl, hvalue, hassign, hrest⟩ := exists_value h
        exact ⟨.parted setting value, more, next, Form.of_eq_plain_iff.1 hvalue, rfl, hassign,
          hrest⟩
      · next setting value hsetting =>
        obtain rfl := Setting.name_of_ofName? hsetting
        change (given.assign setting value >>= fun next => next.read none rest) = _ at h
        obtain ⟨next, hassign, hrest⟩ := bind_eq_ok_iff.1 h
        refine ⟨.joined setting value, rest, next, trivial, ?_, hassign, hrest⟩
        simp [hword, Item.words, String.append_assoc]
      · next flag hnone hflag =>
        change (given.raise flag >>= fun next => next.read none rest) = _ at h
        obtain ⟨next, hraise, hrest⟩ := bind_eq_ok_iff.1 h
        cases flag with
        | verify =>
          refine ⟨.verify, rest, next, trivial, ?_, hraise, hrest⟩
          rw [hword, Flag.ofName?_verify hflag]
          rfl
        | help | version => cases hraise
      · cases h
      · cases h

/-- A line that is read has items, and they do what was read. -/
theorem exists_items {words : List String} (h : given.read none words = .ok result) :
    ∃ items tail, (∀ item ∈ items, item.IsPlain) ∧ (tail = [] ∨ tail = ["--"]) ∧
      words = items.flatMap Item.words ++ tail ∧ given.addAll items = .ok result := by
  -- an item has one word or two, so the induction is on the number of words
  induction hlength : words.length using Nat.strongRecOn generalizing words given with
  | ind length ih =>
    rcases read_cases h with ⟨htail, rfl⟩ | ⟨item, rest, next, hplain, rfl, hadd, hrest⟩
    · exact ⟨[], words, by simp, htail, rfl, rfl⟩
    · have hshorter : rest.length < length := by
        have hwords : 0 < item.words.length := by cases item <;> simp [Item.words]
        rw [← hlength, List.length_append]
        omega
      obtain ⟨items, tail, hitems, htail, rfl, hall⟩ := ih _ hshorter hrest rfl
      refine ⟨item :: items, tail, by simpa using ⟨hplain, hitems⟩, htail, by simp, ?_⟩
      rw [addAll, List.foldlM_cons, hadd]
      exact hall

/-- Items that can be told from each other are read one by one. -/
theorem read_items {items : List Item} (hplain : ∀ item ∈ items, item.IsPlain)
    {tail : List String} (htail : tail = [] ∨ tail = ["--"])
    (h : given.addAll items = .ok result) :
    given.read none (items.flatMap Item.words ++ tail) = .ok result := by
  induction items generalizing given with
  | nil =>
    cases h
    rcases htail with rfl | rfl <;> rfl
  | cons item rest ih =>
    obtain ⟨hfirst, hothers⟩ := List.forall_mem_cons.1 hplain
    rw [addAll, List.foldlM_cons, bind_eq_ok_iff] at h
    obtain ⟨next, hadd, hrest⟩ := h
    rw [List.flatMap_cons, List.append_assoc, read_item hfirst]
    exact ⟨next, hadd, ih hothers hrest⟩

/-! ## Which items may follow each other -/

/-- What has been given once these items are read. -/
def ofItems (items : List Item) : Given where
  verify := .verify ∈ items
  settings := (CommandLine.settings items).reverse

end Given

/-- The rules for duplicates are those that have a name. -/
theorem isSome_duplicateRule?_iff {name : String} :
    (duplicateRule? name).isSome = true ↔ name ∈ duplicateRuleNames := by
  by_cases hreject : name = "reject" <;> by_cases hoverwrite : name = "overwrite" <;>
    simp [duplicateRule?, duplicateRuleNames, hreject, hoverwrite]

theorem Item.isAllowed_iff {item : Item} {setting : Setting} {value : String}
    (h : item.setting? = some (setting, value)) :
    item.IsAllowed ↔ setting.accepts value = true := by
  rw [Item.IsAllowed, h]
  cases setting with
  | duplicates =>
    change value = "reject" ∨ value = "overwrite" ↔ (duplicateRule? value).isSome = true
    rw [isSome_duplicateRule?_iff]
    simp [duplicateRuleNames]
  | _ => simp [Setting.accepts]

theorem Setting.name_inj {first second : Setting} : first.name = second.name ↔ first = second := by
  cases first <;> cases second <;> decide

theorem Item.name_eq_verify_iff {item : Item} : item.name = "verify" ↔ item = .verify := by
  cases item with
  | verify => simp [Item.name, Item.setting?]
  | joined setting | parted setting =>
    cases setting <;> simp [Item.name, Item.setting?, Setting.name]

/-- An option has been given a value if an item has its name. -/
theorem mem_names_iff {items : List Item} {setting : Setting} :
    setting.name ∈ items.map Item.name ↔ setting ∈ (settings items).map Prod.fst := by
  induction items with
  | nil => simp [settings]
  | cons item rest ih =>
    rw [List.map_cons, List.mem_cons, ih]
    cases item with
    | verify => cases setting <;> simp [Item.name, Item.setting?, Setting.name, settings]
    | joined other | parted other =>
      simp [Item.name, Item.setting?, Setting.name_inj, settings]

namespace Given

variable {given result : Given}

theorem isSome_value?_ofItems {items : List Item} {setting : Setting} :
    ((ofItems items).value? setting).isSome = true ↔ setting.name ∈ items.map Item.name := by
  rw [mem_names_iff, value?, List.lookup_isSome_iff, List.mem_map]
  simp [ofItems]

/-- One more item can follow if its name is new and its value is allowed. -/
theorem add_ofItems {items : List Item} {item : Item} :
    (ofItems items).add item = .ok result ↔
      (item.name ∉ items.map Item.name ∧ item.IsAllowed) ∧ result = ofItems (items ++ [item]) := by
  rw [add]
  cases hsetting : item.setting? with
  | none =>
    obtain rfl : item = .verify := by cases item <;> first | rfl | cases hsetting
    have hname : Item.name .verify ∉ items.map Item.name ↔ .verify ∉ items := by
      simp [Item.name_eq_verify_iff, show Item.name .verify = "verify" from rfl]
    have hmore : ofItems (items ++ [.verify]) = { ofItems items with verify := true } := by
      simp [ofItems, CommandLine.settings, List.filterMap_cons, Item.setting?]
    rw [hname, hmore]
    by_cases hmem : .verify ∈ items
    · simp [raise, ofItems, hmem]
    · simp [raise, ofItems, hmem, Item.IsAllowed, Item.setting?, eq_comm]
  | some setting =>
    obtain ⟨setting, value⟩ := setting
    have hname : item.name = setting.name := by rw [Item.name, hsetting]; rfl
    have hmore : ofItems (items ++ [item]) =
        { ofItems items with settings := (setting, value) :: (ofItems items).settings } := by
      have hverify : .verify ≠ item := by rintro rfl; cases hsetting
      simp [ofItems, CommandLine.settings, hsetting, hverify]
    rw [hname, ← isSome_value?_ofItems, Item.isAllowed_iff hsetting, hmore]
    dsimp only
    rw [assign]
    by_cases hgiven : ((ofItems items).value? setting).isSome = true
    · simp [hgiven]
    · by_cases haccepts : setting.accepts value = true
      · simp [hgiven, haccepts, eq_comm]
      · simp [hgiven, haccepts]

/-- Items can follow each other if their names are different and their values are allowed. -/
theorem addAll_eq_ok_iff {items : List Item} :
    addAll {} items = .ok result ↔
      ((∀ item ∈ items, item.IsAllowed) ∧ (items.map Item.name).Nodup) ∧
        result = ofItems items := by
  -- an item is held against those before it, so the last one is taken off
  induction items using List.reverseRecOn generalizing result with
  | nil =>
    change Except.ok {} = Except.ok result ↔ _
    simp [ofItems, CommandLine.settings, eq_comm]
  | append_singleton before item ih =>
    have hsplit :
        addAll {} (before ++ [item]) = addAll {} before >>= fun given => given.add item := by
      rw [addAll, List.foldlM_append, addAll]
      simp
    rw [hsplit, bind_eq_ok_iff]
    constructor
    · rintro ⟨given, hbefore, hadd⟩
      obtain ⟨⟨hallowed, hdistinct⟩, rfl⟩ := ih.1 hbefore
      obtain ⟨⟨hnew, hvalue⟩, rfl⟩ := add_ofItems.1 hadd
      refine ⟨⟨by simpa [or_imp, forall_and] using ⟨hallowed, hvalue⟩, ?_⟩, rfl⟩
      rw [List.map_append, List.map_singleton, List.nodup_append]
      refine ⟨hdistinct, by simp, ?_⟩
      rintro name hname _ hlast rfl
      exact hnew (List.mem_singleton.1 hlast ▸ hname)
    · rintro ⟨⟨hallowed, hdistinct⟩, rfl⟩
      rw [List.map_append, List.map_singleton, List.nodup_append] at hdistinct
      refine ⟨_, ih.2 ⟨⟨fun other hother => hallowed other (by simp [hother]), hdistinct.1⟩, rfl⟩,
        add_ofItems.2 ⟨⟨fun hmem => ?_, hallowed item (by simp)⟩, rfl⟩⟩
      exact hdistinct.2.2 _ hmem _ (by simp) rfl

end Given

/-! ## Lines -/

theorem nodup_settings {items : List Item} (h : (items.map Item.name).Nodup) :
    ((settings items).map Prod.fst).Nodup := by
  induction items with
  | nil => simp [settings]
  | cons item rest ih =>
    obtain ⟨hnew, hrest⟩ := List.nodup_cons.1 h
    cases hsetting : item.setting? with
    | none => simpa [settings, hsetting] using ih hrest
    | some setting =>
      have hname : item.name = setting.1.name := by rw [Item.name, hsetting]; rfl
      rw [hname, mem_names_iff] at hnew
      simpa [settings, hsetting] using ⟨by simpa [settings] using hnew, ih hrest⟩

/-- What has been given is what the items ask for. -/
theorem ofGiven_ofItems {items : List Item} (h : (items.map Item.name).Nodup) :
    Arguments.ofGiven (Given.ofItems items) = argumentsOf items := by
  have hvalue : ∀ setting, (Given.ofItems items).value? setting = (settings items).lookup setting :=
    fun setting =>
      (Json.lookup_eq_of_perm (List.reverse_perm _).symm (nodup_settings h) setting).symm
  have hrule : ∀ value : Option String, (value.bind duplicateRule?).getD .reject =
      if value = some "overwrite" then .overwrite else .reject := by
    rintro (- | value)
    · rfl
    · by_cases hreject : value = "reject" <;> by_cases hoverwrite : value = "overwrite" <;>
        simp [duplicateRule?, hreject, hoverwrite]
  simp only [Arguments.ofGiven, argumentsOf, hvalue, hrule]
  rfl

/-- An option can be given the value that it has if it is not given, and nothing changes. -/
theorem exists_assign_standard {given : Given} {setting : Setting} {value : String}
    (hnew : given.value? setting = none) (hvalue : setting.standard? = some value) :
    ∃ after, given.assign setting value = .ok after ∧
      Arguments.ofGiven after = Arguments.ofGiven given := by
  have haccepts : setting.accepts value = true := by
    cases setting <;> cases hvalue <;> decide
  refine ⟨{ given with settings := (setting, value) :: given.settings }, ?_, ?_⟩
  · rw [Given.assign, hnew, Option.isSome_none, if_neg Bool.false_ne_true,
      if_neg (not_not_intro haccepts)]
  · have hlookup : ∀ other, ((setting, value) :: given.settings).lookup other =
        if other = setting then some value else given.settings.lookup other := by
      intro other
      cases hsame : other == setting with
      | true => rw [List.lookup_cons, hsame, if_pos (eq_of_beq hsame)]
      | false => rw [List.lookup_cons, hsame, if_neg (ne_of_beq_false hsame)]
    rw [Given.value?] at hnew
    simp only [Arguments.ofGiven, Given.value?, hlookup]
    cases setting <;> cases hvalue <;> simp [hnew, duplicateRule?]

section

variable {first second : List Item} (h : (first.map Item.setting?).Perm (second.map Item.setting?))

include h

theorem settings_perm : (settings first).Perm (settings second) := by
  have hmap : ∀ items : List Item, settings items = (items.map Item.setting?).filterMap id := by
    intro items
    rw [List.filterMap_map]
    rfl
  rw [hmap, hmap]
  exact h.filterMap id

/-- All that counts of items is what they ask for, in any order. -/
theorem argumentsOf_perm (hdistinct : (first.map Item.name).Nodup) :
    argumentsOf first = argumentsOf second := by
  have hverify : ∀ items : List Item, Item.verify ∈ items ↔ none ∈ items.map Item.setting? := by
    intro items
    rw [List.mem_map]
    refine ⟨fun hmem => ⟨_, hmem, rfl⟩, ?_⟩
    rintro ⟨item, hmem, hnone⟩
    cases item with
    | verify => exact hmem
    | joined | parted => cases hnone
  have hsame : (Item.verify ∈ first) = (Item.verify ∈ second) := by
    rw [hverify, hverify, h.mem_iff]
  simp only [argumentsOf, Json.lookup_eq_of_perm (settings_perm h) (nodup_settings hdistinct),
    hsame]

/-- Items that ask for the same may stand on a line if the others do. -/
theorem IsLine.perm (hfirst : IsLine first) (hplain : ∀ item ∈ second, item.IsPlain) :
    IsLine second := by
  refine ⟨hplain, fun item hmem => ?_, ?_⟩
  · obtain ⟨other, hother, hsame⟩ := List.mem_map.1 (h.mem_iff.2 (List.mem_map_of_mem hmem))
    rw [Item.IsAllowed, ← hsame]
    exact hfirst.allowed other hother
  · have hnames : ∀ items : List Item, items.map Item.name = (items.map Item.setting?).map
        fun setting => setting.elim "verify" fun setting => setting.1.name := by
      intro items
      rw [List.map_map]
      rfl
    have hdistinct := hfirst.distinct
    rw [hnames] at hdistinct ⊢
    exact (h.map _).nodup hdistinct

end

/-- A line of items is understood. -/
theorem parse_of_isLine {items : List Item} (h : IsLine items) {tail : List String}
    (htail : tail = [] ∨ tail = ["--"]) :
    Arguments.parse (items.flatMap Item.words ++ tail) = .ok (argumentsOf items) := by
  have hread := Given.read_items h.plain htail
    (Given.addAll_eq_ok_iff.2 ⟨⟨h.allowed, h.distinct⟩, rfl⟩)
  rw [Arguments.parse, hread, Except.map, ofGiven_ofItems h.distinct]

/-- **The command lines that are understood are the lines of options, in any order and in any
form.**  Words are understood if and only if they are the words of items that may stand on a line,
perhaps with a divider behind them, and then they ask for what the items say and for the standard
values otherwise.  So lines of items that ask for the same, whatever their order and whichever of
its forms each item has, are understood in the same way. -/
theorem parse_eq_ok_iff_isLine :
    (∀ words arguments, Arguments.parse words = .ok arguments ↔
      ∃ items tail, IsLine items ∧ (tail = [] ∨ tail = ["--"]) ∧
        words = items.flatMap Item.words ++ tail ∧ arguments = argumentsOf items) ∧
    ∀ (first second : List Item) (tail other : List String), IsLine first →
      (∀ item ∈ second, item.IsPlain) →
      (first.map Item.setting?).Perm (second.map Item.setting?) →
      (tail = [] ∨ tail = ["--"]) → (other = [] ∨ other = ["--"]) →
      Arguments.parse (second.flatMap Item.words ++ other) =
        Arguments.parse (first.flatMap Item.words ++ tail) := by
  refine ⟨fun words arguments => ⟨fun hparse => ?_, ?_⟩, ?_⟩
  · rw [Arguments.parse] at hparse
    cases hread : Given.read {} none words with
    | error refusal =>
      rw [hread] at hparse
      cases hparse
    | ok given =>
      rw [hread] at hparse
      obtain ⟨items, tail, hplain, htail, rfl, hall⟩ := Given.exists_items hread
      obtain ⟨⟨hallowed, hdistinct⟩, rfl⟩ := Given.addAll_eq_ok_iff.1 hall
      refine ⟨items, tail, ⟨hplain, hallowed, hdistinct⟩, htail, rfl, ?_⟩
      rw [← ofGiven_ofItems hdistinct]
      exact (Except.ok.inj hparse).symm
  · rintro ⟨items, tail, hline, htail, rfl, rfl⟩
    exact parse_of_isLine hline htail
  · intro first second tail other hfirst hplain hperm htail hother
    rw [parse_of_isLine (hfirst.perm hperm hplain) hother, parse_of_isLine hfirst htail,
      argumentsOf_perm hperm hfirst.distinct]

/-- The options of this line come in an order of their own, a value looks like an option, and
another one is a hyphen. -/
example : Arguments.parse ["--prefix-field", "-", "--verify", "--input=--output=x", "--"] =
    .ok
      { job := { input := "--output=x", options := { prefixField := "-" }, verify := true } } := by
  rfl

end CommandLine
end OpcodeTable
