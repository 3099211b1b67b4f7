import Mathlib.Data.String.Basic
import OpcodeTable.Text.Space

/-!
# Splitting and trimming texts

`String.splitOn` looks for its separator by byte positions.  Where the separator is a character, all
it does can be said of the characters alone: it splits their list.

## What is here

* `splitOnAux_of_valid`, by induction on the characters that have not been read, and
  `splitOn_ofList_singleton` for a text as a whole.
* `splitOn_of_not_mem` and `trimSpace_of_forall`, by which a text stays as it is.
-/

set_option autoImplicit false

namespace OpcodeTable

/-- While a text is split, `piece` is what has been read since the last separator. -/
theorem splitOnAux_of_valid (separator : Char) (front piece rest : List Char)
    (done : List String) :
    String.splitOnAux (String.ofList (front ++ piece ++ rest)) (String.ofList [separator])
      ⟨String.utf8Len front⟩ ⟨String.utf8Len front + String.utf8Len piece⟩ 0 done =
    done.reverse ++
      (List.splitOnPPrepend (· == separator) rest piece.reverse).map String.ofList := by
  induction rest generalizing front piece done with
  | nil =>
    have hend := String.atEnd_of_valid (front ++ piece) []
    have hextract := String.extract_of_valid front piece []
    rw [String.utf8Len_append] at hend
    rw [String.splitOnAux.eq_def, if_pos (hend.2 rfl)]
    dsimp only
    rw [hextract]
    simp
  | cons c rest ih =>
    have hend := String.atEnd_of_valid (front ++ piece) (c :: rest)
    have hget := String.get_of_valid (front ++ piece) (c :: rest)
    have hnext := String.next_of_valid (front ++ piece) c rest
    rw [String.utf8Len_append] at hend hget hnext
    have hseparator : String.Pos.Raw.get (String.ofList [separator]) 0 = separator :=
      String.get_of_valid [] [separator]
    rw [String.splitOnAux.eq_def, if_neg (fun h => nomatch hend.1 h), hget, List.headD_cons,
      hseparator, List.splitOnPPrepend_cons_eq_if]
    dsimp only
    split
    · next heq =>
      obtain rfl := eq_of_beq heq
      have hsize : String.Pos.Raw.next (String.ofList [c]) 0 = ⟨c.utf8Size⟩ :=
        (String.next_of_valid [] c []).trans (by rw [String.utf8Len_nil, Nat.zero_add])
      have hwhole : String.Pos.Raw.atEnd (String.ofList [c]) ⟨c.utf8Size⟩ = true := by
        have h := (String.atEnd_of_valid [c] []).2 rfl
        rwa [List.append_nil, String.utf8Len_cons, String.utf8Len_nil, Nat.zero_add] at h
      have hback : String.Pos.Raw.unoffsetBy
          ⟨String.utf8Len front + String.utf8Len piece + c.utf8Size⟩ ⟨c.utf8Size⟩ =
            ⟨String.utf8Len front + String.utf8Len piece⟩ := by
        simp [String.Pos.Raw.unoffsetBy]
      have hrest := ih (front ++ piece ++ [c]) [] (String.ofList piece :: done)
      rw [hsize, if_pos hwhole, hnext, hback, String.extract_of_valid]
      simpa [Nat.add_assoc] using hrest
    · next hne =>
      have hstay : String.Pos.Raw.unoffsetBy
          ⟨String.utf8Len front + String.utf8Len piece⟩ 0 =
            ⟨String.utf8Len front + String.utf8Len piece⟩ :=
        rfl
      have hrest := ih front (piece ++ [c]) done
      rw [hstay, hnext]
      simpa [Nat.add_assoc] using hrest

/-- Splitting a text at a character is splitting its characters there. -/
theorem splitOn_ofList_singleton (text : String) (separator : Char) :
    text.splitOn (String.ofList [separator]) =
      (text.toList.splitOnP (· == separator)).map String.ofList := by
  have hne : (String.ofList [separator] == "") = false := by simp
  have h := splitOnAux_of_valid separator [] [] text.toList []
  rw [List.append_nil, List.nil_append, String.ofList_toList] at h
  rw [String.splitOn, hne]
  exact h

/-- A text without the separator is one piece. -/
theorem splitOn_of_not_mem {text : String} {separator : Char} (h : separator ∉ text.toList) :
    text.splitOn (String.ofList [separator]) = [text] := by
  have hnone : ∀ c ∈ text.toList, (c == separator) = false := by
    intro c hc
    rw [beq_eq_false_iff_ne]
    exact fun heq => h (heq ▸ hc)
  rw [splitOn_ofList_singleton, List.splitOnP_eq_singleton hnone, List.map_singleton,
    String.ofList_toList]

/-- A text without white space has none at its ends. -/
theorem trimSpace_of_forall {text : String} (h : ∀ c ∈ text.toList, isSpace c = false) :
    trimSpace text = text := by
  have hkeep : ∀ chars : List Char, (∀ c ∈ chars, isSpace c = false) →
      chars.dropWhile isSpace = chars := by
    intro chars hchars
    cases chars with
    | nil => rfl
    | cons c rest => rw [List.dropWhile_cons_of_neg (by simp [hchars c])]
  rw [trimSpace, hkeep _ h, hkeep _ (fun c hc => h c (List.mem_reverse.1 hc)), List.reverse_reverse,
    String.ofList_toList]

end OpcodeTable
