/-!
# Texts as bytes

A device holds bytes, and a text stands on it in UTF-8.  `textOfBytes?` is the inverse of
`textBytes`: what was a text is read back as that text, and nothing else is read at all.
-/

set_option autoImplicit false

namespace OpcodeTable

/-- The bytes of a text. -/
def textBytes (text : String) : List UInt8 :=
  text.toByteArray.data.toList

/-- The text that the bytes are those of. -/
def textOfBytes? (bytes : List UInt8) : Option String :=
  String.fromUTF8? ⟨bytes.toArray⟩

@[simp] theorem textBytes_append (s t : String) :
    textBytes (s ++ t) = textBytes s ++ textBytes t := by
  simp [textBytes]

@[simp] theorem textOfBytes?_textBytes (text : String) :
    textOfBytes? (textBytes text) = some text := by
  have hbytes : (⟨(textBytes text).toArray⟩ : ByteArray) = text.toByteArray := by
    simp [textBytes]
  simp [textOfBytes?, hbytes, String.fromUTF8?, text.isValidUTF8, String.fromUTF8]

theorem eq_textBytes_of_textOfBytes? {bytes : List UInt8} {text : String}
    (h : textOfBytes? bytes = some text) : bytes = textBytes text := by
  rw [textOfBytes?, String.fromUTF8?] at h
  split at h
  · simp only [Option.some.injEq] at h
    simp [← h, textBytes, String.fromUTF8]
  · cases h

/-- Different texts have different bytes. -/
theorem textBytes_inj {s t : String} : textBytes s = textBytes t ↔ s = t := by
  refine ⟨fun h => ?_, congrArg textBytes⟩
  have htexts := congrArg textOfBytes? h
  rwa [textOfBytes?_textBytes, textOfBytes?_textBytes, Option.some_inj] at htexts

/-- A text whose bytes are the front of those of another one is its front. -/
theorem isPrefix_toList_of_textBytes {s t : String} (h : textBytes s <+: textBytes t) :
    s.toList <+: t.toList := by
  obtain ⟨rest, hrest⟩ := h
  refine List.isPrefix_of_utf8Encode_append_eq_utf8Encode ⟨rest.toArray⟩ ?_
  rw [String.utf8Encode_toList, String.utf8Encode_toList]
  apply ByteArray.ext
  rw [ByteArray.data_append, ← Array.toList_inj, Array.toList_append]
  exact hrest

end OpcodeTable
