import OpcodeTable.Json.Members
import OpcodeTable.Json.Parser.Numeral
import OpcodeTable.Json.Parser.Quoted

/-!
# Reading values

Values are read with a bound on how deep arrays and objects may be nested, and the bound is what
the recursion of `Parser.value` is on.  A parser of a particular shape, `Parser.list` or
`Parser.object`, is at fault when the text holds a value of another kind; it reads a value that is
no array or object to its end first, so that a mistake inside that value is what is reported.
-/

set_option autoImplicit false

namespace OpcodeTable
namespace Json
namespace Parser

variable {α : Type}

/-- Reads the letters of a name, which stands for a value. -/
def word (letters : List Char) (value : Value) (text : List Char) : Reading Value :=
  match letters, text with
  | [], text => .ok (value, text)
  | _ :: _, [] => .error (.before .endOfValue [])
  | letter :: letters, c :: rest =>
    if c = letter then word letters value rest else .error (.at .expectedName (c :: rest))

/-- Reads a value that is neither an array nor an object, without blanks before it. -/
def scalar (text : List Char) : Reading Value :=
  match text with
  | [] => .error (.at .endOfValue [])
  | c :: rest =>
    if c = 'n' then word ['u', 'l', 'l'] .null rest
    else if c = 't' then word ['r', 'u', 'e'] (.boolean true) rest
    else if c = 'f' then word ['a', 'l', 's', 'e'] (.boolean false) rest
    else if c = '"' then
      match quoted.run rest with
      | .error fault => .error fault
      | .ok (s, more) => .ok (.string s, more)
    else if c = '-' ∨ c.isDigit then
      match number (c = '-') (if c = '-' then rest else c :: rest) with
      | .error fault => .error fault
      | .ok (n, more) => .ok (.number n, more)
    else .error (.at .expectedValue (c :: rest))

/-- The fault of a text that does not begin with the expected bracket. -/
def mismatch (expected : Expected) (text : List Char) : Fault :=
  match text with
  | [] => .at .endOfValue []
  | c :: _ =>
    if c = '[' then .before (.wrongType .array expected) text
    else if c = '{' then .before (.wrongType .object expected) text
    else
      match scalar text with
      | .error fault => fault
      | .ok (value, rest) => .before (.wrongType (.of value) expected) rest

/-- Reads the items of an array whose opening bracket has been read. -/
def elements (item : Parser α) (text : List Char) : Reading (List α) :=
  match collection .array item (fun before value => value :: before) [] text with
  | .error fault => .error fault
  | .ok (values, rest) => .ok (values.reverse, rest)

/-- Reads a member of an object: its name, a colon and its value. -/
def memberOf (item : Parser α) (text : List Char) : Reading (String × α) :=
  match skipBlank text with
  | [] => .error (.at .endOfValue [])
  | c :: rest =>
    if c ≠ '"' then .error (.at .keyNotAString (c :: rest))
    else
      match quoted.run rest with
      | .error fault => .error fault
      | .ok (name, afterName) =>
        match skipBlank afterName with
        | [] => .error (.at .endOfObject [])
        | d :: more =>
          if d ≠ ':' then .error (.at .expectedColon (d :: more))
          else
            match item.run more with
            | .error fault => .error fault
            | .ok (value, after) => .ok ((name, value), after)

theorem length_word_le {letters text rest : List Char} {value result : Value}
    (h : word letters value text = .ok (result, rest)) : rest.length ≤ text.length := by
  fun_induction word letters value text with
  | case1 text =>
    cases h
    exact Nat.le_refl _
  | case2 | case4 => cases h
  | case3 letters d more ih => exact Nat.le_succ_of_le (ih h)

theorem length_scalar_lt {text rest : List Char} {value : Value}
    (h : scalar text = .ok (value, rest)) : rest.length < text.length := by
  rw [scalar.eq_def] at h
  split at h
  · cases h
  · next c tail =>
    rw [List.length_cons]
    split at h
    · exact Nat.lt_succ_of_le (length_word_le h)
    · split at h
      · exact Nat.lt_succ_of_le (length_word_le h)
      · split at h
        · exact Nat.lt_succ_of_le (length_word_le h)
        · split at h
          · split at h
            · cases h
            · next s more hquoted =>
              have := quoted.consumes hquoted
              cases h
              omega
          · split at h
            · split at h
              · cases h
              · next n more hnumber =>
                have hshort := length_number_lt hnumber
                cases h
                split at hshort
                · omega
                · exact hshort
            · cases h

theorem length_memberOf_lt {item : Parser α} {text rest : List Char} {name : String} {value : α}
    (h : memberOf item text = .ok ((name, value), rest)) : rest.length < text.length := by
  have hblank := length_skipBlank_le text
  rw [memberOf] at h
  split at h
  · cases h
  · next c tail hskip =>
    rw [hskip, List.length_cons] at hblank
    split at h
    · cases h
    · split at h
      · cases h
      · next key afterName hname =>
        have hquoted := quoted.consumes hname
        have hcolon := length_skipBlank_le afterName
        split at h
        · cases h
        · next d more hmore =>
          rw [hmore, List.length_cons] at hcolon
          split at h
          · cases h
          · split at h
            · cases h
            · next result after hitem =>
              have := item.consumes hitem
              cases h
              omega

/-- The parser of a member of an object. -/
def member (item : Parser α) : Parser (String × α) where
  run := memberOf item
  consumes := length_memberOf_lt

/-- Reads the members of an object whose opening bracket has been read. -/
def members (item : Parser α) (text : List Char) : Reading (Members α) :=
  collection .object (member item) (fun before entry => before.put entry.1 entry.2) [] text

theorem length_elements_lt {item : Parser α} {text rest : List Char} {values : List α}
    (h : elements item text = .ok (values, rest)) : rest.length < text.length := by
  rw [elements] at h
  split at h
  · cases h
  · next found after hfound =>
    have hshort := length_collection_lt _ _ _ _ _ hfound
    cases h
    exact hshort

/-- Reads an array, or is at fault. -/
def listOf (item : Parser α) (text : List Char) : Reading (List α) :=
  match skipBlank text with
  | [] => .error (mismatch .array [])
  | c :: rest => if c = '[' then elements item rest else .error (mismatch .array (c :: rest))

/-- Reads an object, or is at fault. -/
def objectOf (item : Parser α) (text : List Char) : Reading (Members α) :=
  match skipBlank text with
  | [] => .error (mismatch .object [])
  | c :: rest => if c = '{' then members item rest else .error (mismatch .object (c :: rest))

/-- Reads a value of any kind, whose items are read by `item`.  Without such a parser the value may
be neither an array nor an object. -/
def valueOf (item : Option (Parser Value)) (text : List Char) : Reading Value :=
  match skipBlank text with
  | [] => .error (.at .endOfValue [])
  | c :: rest =>
    if c = '[' ∨ c = '{' then
      match item with
      | none => .error (.at .tooDeep (c :: rest))
      | some item =>
        if c = '[' then
          match elements item rest with
          | .error fault => .error fault
          | .ok (values, more) => .ok (.array values, more)
        else
          match members item rest with
          | .error fault => .error fault
          | .ok (fields, more) => .ok (.object fields, more)
    else scalar (c :: rest)

theorem length_listOf_lt {item : Parser α} {text rest : List Char} {values : List α}
    (h : listOf item text = .ok (values, rest)) : rest.length < text.length := by
  have hblank := length_skipBlank_le text
  rw [listOf] at h
  split at h
  · cases h
  · next c tail hskip =>
    rw [hskip, List.length_cons] at hblank
    split at h
    · have := length_elements_lt h
      omega
    · cases h

theorem length_objectOf_lt {item : Parser α} {text rest : List Char} {fields : Members α}
    (h : objectOf item text = .ok (fields, rest)) : rest.length < text.length := by
  have hblank := length_skipBlank_le text
  rw [objectOf] at h
  split at h
  · cases h
  · next c tail hskip =>
    rw [hskip, List.length_cons] at hblank
    split at h
    · have := length_collection_lt _ _ _ _ _ h
      omega
    · cases h

theorem length_valueOf_lt {item : Option (Parser Value)} {text rest : List Char} {value : Value}
    (h : valueOf item text = .ok (value, rest)) : rest.length < text.length := by
  have hblank := length_skipBlank_le text
  rw [valueOf] at h
  split at h
  · cases h
  · next c tail hskip =>
    rw [hskip, List.length_cons] at hblank
    split at h
    · split at h
      · cases h
      · split at h
        · split at h
          · cases h
          · next values more helements =>
            have := length_elements_lt helements
            cases h
            omega
        · split at h
          · cases h
          · next fields more hmembers =>
            have := length_collection_lt _ _ _ _ _ hmembers
            cases h
            omega
    · have := length_scalar_lt h
      rw [List.length_cons] at this
      omega

/-- The parser of an array. -/
def list (item : Parser α) : Parser (List α) where
  run := listOf item
  consumes := length_listOf_lt

/-- The parser of an object. -/
def object (item : Parser α) : Parser (Members α) where
  run := objectOf item
  consumes := length_objectOf_lt

/-- The parser of a value whose arrays and objects are nested at most `depth` deep. -/
def value : Nat → Parser Value
  | 0 => ⟨valueOf none, length_valueOf_lt⟩
  | depth + 1 => ⟨valueOf (some (value depth)), length_valueOf_lt⟩

end Parser
end Json
end OpcodeTable
