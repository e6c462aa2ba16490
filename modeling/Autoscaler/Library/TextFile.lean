import Mathlib.Data.List.Infix

/-! Files of UTF-8 text, and what a reader finds who comes while they are being written. -/
namespace TextFile

def decode (bytes : ByteArray) : Option (List Char) := bytes.utf8Decode?.map Array.toList

/-- Universal newlines: a carriage return, alone or before a line feed, reads as a line feed.
`returned` tells of a carriage return just before. -/
def newlines (returned : Bool) : List Char → List Char
  | [] => []
  | c :: rest =>
    if c = '\r' then '\n' :: newlines true rest
    else if returned && c == '\n' then newlines false rest
    else c :: newlines false rest

/-- The text of a file in text mode, unless its bytes cannot be decoded. -/
def readText (bytes : ByteArray) : Option (List Char) := (decode bytes).map (newlines false)

def Starts (content whole : ByteArray) : Prop := ∃ rest, content ++ rest = whole

variable {bytes content later : ByteArray} {text found : List Char}

theorem decode_eq_some_iff : decode bytes = some text ↔ bytes = text.utf8Encode := by
  constructor
  · intro h
    obtain ⟨found, hfound, rfl⟩ := Option.map_eq_some_iff.mp h
    obtain ⟨chars, rfl⟩ := ByteArray.isSome_utf8Decode?_iff.mp (Option.isSome_of_eq_some hfound)
    rw [List.utf8Decode?_utf8Encode] at hfound
    cases hfound
    rfl
  · rintro rfl
    simp [decode]

theorem utf8Encode_injective (h : text.utf8Encode = found.utf8Encode) : text = found :=
  Option.some.inj ((decode_eq_some_iff.mpr rfl).symm.trans (decode_eq_some_iff.mpr h))

theorem newlines_eq_self (h : '\r' ∉ text) : newlines false text = text := by
  induction text with
  | nil => rfl
  | cons c text ih =>
    obtain ⟨hc, htext⟩ := not_or.mp (List.mem_cons.not.mp h)
    rw [newlines, if_neg (Ne.symm hc), Bool.false_and, if_neg Bool.false_ne_true, ih htext]

theorem Starts.trans {whole : ByteArray} (h : Starts content later) (h' : Starts later whole) :
    Starts content whole := by
  obtain ⟨rest, rfl⟩ := h
  obtain ⟨more, rfl⟩ := h'
  exact ⟨rest ++ more, (ByteArray.append_assoc ..).symm⟩

theorem starts_of_prefix (h : found <+: text) : Starts found.utf8Encode text.utf8Encode := by
  obtain ⟨rest, rfl⟩ := h
  exact ⟨rest.utf8Encode, List.utf8Encode_append.symm⟩

theorem prefix_of_starts (h : Starts found.utf8Encode text.utf8Encode) : found <+: text := by
  obtain ⟨rest, hrest⟩ := h
  exact List.isPrefix_of_utf8Encode_append_eq_utf8Encode rest hrest

/-- The reader of a text without carriage returns finds the characters that are complete, unless the
bytes end inside of one. -/
theorem readText_eq_some_iff (h : Starts content text.utf8Encode) (hreturn : '\r' ∉ text) :
    readText content = some found ↔ found <+: text ∧ content = found.utf8Encode := by
  unfold readText
  constructor
  · intro hread
    obtain ⟨chars, hdecode, rfl⟩ := Option.map_eq_some_iff.mp hread
    obtain rfl := decode_eq_some_iff.mp hdecode
    have hstarts := prefix_of_starts h
    rw [newlines_eq_self fun hmem => hreturn (hstarts.subset hmem)]
    exact ⟨hstarts, rfl⟩
  · rintro ⟨hstarts, rfl⟩
    rw [decode_eq_some_iff.mpr rfl, Option.map_some,
      newlines_eq_self fun hmem => hreturn (hstarts.subset hmem)]

theorem readText_eq_none_iff (h : Starts content text.utf8Encode) (hreturn : '\r' ∉ text) :
    readText content = none ↔ ¬ ∃ found, found <+: text ∧ content = found.utf8Encode := by
  rw [Option.eq_none_iff_forall_ne_some]
  constructor
  · rintro hnone ⟨found, hfound⟩
    exact hnone found ((readText_eq_some_iff h hreturn).mpr hfound)
  · intro hnone found hread
    exact hnone ⟨found, (readText_eq_some_iff h hreturn).mp hread⟩

end TextFile
