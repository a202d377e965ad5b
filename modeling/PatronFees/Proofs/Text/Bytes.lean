import PatronFees.Table.Row

namespace PatronFees.Text

/-!
# Texts as bytes

The bytes of a text are text again, and those of ASCII characters are the
characters' codes. A text keeps its ends where they are no blanks.
-/

theorem toList_loop
    (bytes : ByteArray)
    (position : Nat)
    (before : List UInt8) :
    ByteArray.toList.loop bytes position before =
      before.reverse ++ bytes.data.toList.drop position := by
  induction position, before using ByteArray.toList.loop.induct bytes with
  | case1 position before inside inductionHypothesis =>
      have within : position < bytes.data.toList.length := by
        simpa using inside
      have byte : bytes.get! position = bytes.data.toList[position] :=
        getElem!_pos bytes.data position inside
      rw [ByteArray.toList.loop, if_pos inside, inductionHypothesis, byte,
        List.drop_eq_getElem_cons within]
      simp
  | case2 position before outside =>
      rw [ByteArray.toList.loop, if_neg outside,
        List.drop_eq_nil_of_le (by simpa using outside), List.append_nil]

theorem toList_eq (bytes : ByteArray) :
    bytes.toList = bytes.data.toList := by
  rw [ByteArray.toList, toList_loop]
  rfl

/-- The bytes of a text are a field with that text, but for blanks around it. -/
theorem text?_toUTF8 (text : String) :
    Table.Field.text? text.toUTF8.toList = some (trimmed text) := by
  have same : (⟨text.toUTF8.toList.toArray⟩ : ByteArray) = text.toUTF8 := by
    rw [toList_eq]
  have isText : text.toUTF8.IsValidUTF8 := text.isValidUTF8
  rw [Table.Field.text?, same, String.fromUTF8?, dif_pos isText]
  rfl

/-- The code of an ASCII character is its only byte. -/
theorem toList_toUTF8_ofList
    {characters : List Char}
    (ascii : ∀ character ∈ characters, character.toNat < 128) :
    (String.ofList characters).toUTF8.toList =
      characters.map fun character => character.toNat.toUInt8 := by
  have bytes :
      (String.ofList characters).toUTF8.toList =
        characters.flatMap String.utf8EncodeChar := by
    rw [toList_eq, String.toUTF8, String.toByteArray_ofList, List.utf8Encode,
      List.toList_data_toByteArray]
  rw [bytes]
  clear bytes
  induction characters with
  | nil =>
      rfl
  | cons character rest inductionHypothesis =>
      have isAscii := ascii character List.mem_cons_self
      have single :
          String.utf8EncodeChar character = [character.toNat.toUInt8] :=
        if_pos (Nat.le_of_lt_succ isAscii)
      rw [List.flatMap_cons, single, inductionHypothesis fun other member =>
        ascii other (List.mem_cons_of_mem character member)]
      rfl

/-- Text whose ends are no blanks stays as it is. -/
theorem trim_eq_self
    {characters : List Char}
    (front : ∀ character ∈ characters.head?, isBlank character = false)
    (back : ∀ character ∈ characters.getLast?, isBlank character = false) :
    trim characters = characters := by
  have stays
      {others : List Char}
      (first : ∀ character ∈ others.head?, isBlank character = false) :
      others.dropWhile isBlank = others := by
    cases others with
    | nil =>
        rfl
    | cons character rest =>
        rw [List.dropWhile_cons_of_neg]
        simpa using first character rfl
  rw [trim, stays front, stays (by rwa [List.head?_reverse]),
    List.reverse_reverse]

/-- A dropped front leaves nothing, or what begins with another member. -/
theorem head?_dropWhile
    (characters : List Char) :
    ∀ character ∈ (characters.dropWhile isBlank).head?,
      isBlank character = false := by
  intro character first
  have := List.head?_dropWhile_not isBlank characters
  rw [Option.mem_def] at first
  rw [first] at this
  simpa using this

/-- What has been trimmed has no more blanks at its ends. -/
theorem trim_trim (characters : List Char) :
    trim (trim characters) = trim characters := by
  apply trim_eq_self
  · intro character first
    have isFront : trim characters <+: characters.dropWhile isBlank := by
      rw [trim, ← List.reverse_suffix, List.reverse_reverse]
      exact List.dropWhile_suffix isBlank
    obtain ⟨rest, whole⟩ := isFront
    apply head?_dropWhile characters character
    rw [← whole, List.head?_append, Option.mem_def.mp first]
    rfl
  · rw [trim, List.getLast?_reverse]
    exact head?_dropWhile _

theorem trimmed_trimmed (text : String) :
    trimmed (trimmed text) = trimmed text := by
  simp only [trimmed, String.toList_ofList, trim_trim]

/-- What is left of a text that is not blank is itself not blank. -/
theorem legible_of_nonBlank
    {text label : String}
    (left : nonBlank text = some label) :
    trimmed label = label ∧ label ≠ "" := by
  rw [nonBlank] at left
  split at left
  next =>
    cases left
  next something =>
    obtain rfl := Option.some.inj left
    exact ⟨trimmed_trimmed text, something⟩

end PatronFees.Text
