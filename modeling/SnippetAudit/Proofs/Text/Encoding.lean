/-!
Texts in bytes. Where the bytes of a text are cut within a character, they are no text, and do not
become one when the bytes of another text come behind them.
-/

namespace SnippetAudit.Text

variable {bytes front back : ByteArray}

/-- Bytes that do not start within a character. -/
def Begins (bytes : ByteArray) : Prop :=
  ∀ some' : 0 < bytes.size, bytes[0].IsUTF8FirstByte

theorem begins_empty : Begins .empty :=
  fun some' => absurd some' (Nat.lt_irrefl 0)

theorem begins_of_isValidUTF8 (valid : bytes.IsValidUTF8) : Begins bytes :=
  fun some' => valid.isUTF8FirstByte_getElem_zero some'

theorem Begins.extract (begins : Begins bytes) (stop : Nat) : Begins (bytes.extract 0 stop) := by
  intro some'
  have full : 0 < bytes.size := by
    rw [ByteArray.size_extract] at some'
    omega
  rw [ByteArray.getElem_extract]
  exact begins full

theorem Begins.append (first : Begins front) (second : Begins back) : Begins (front ++ back) := by
  intro some'
  by_cases full : 0 < front.size
  · rw [ByteArray.getElem_append_left full]
    exact first full
  · have empty : front = .empty := ByteArray.size_eq_zero_iff.mp (Nat.eq_zero_of_not_pos full)
    subst empty
    simp only [ByteArray.empty_append] at some' ⊢
    exact second some'

/-- Bytes are cut between two characters wherever the second part does not start within one. -/
theorem isValidUTF8_append_iff (begins : Begins back) :
    (front ++ back).IsValidUTF8 ↔ front.IsValidUTF8 ∧ back.IsValidUTF8 := by
  refine ⟨fun valid => ?_, fun both => both.1.append both.2⟩
  let text : String := ⟨front ++ back, valid⟩
  let cut : String.Pos.Raw := ⟨front.size⟩
  have size : text.rawEndPos = ⟨front.size + back.size⟩ := by
    rw [String.Pos.Raw.ext_iff, String.byteIdx_rawEndPos, ← String.size_toByteArray,
      ByteArray.size_append]
  have between : cut.IsValid text := by
    rw [String.Pos.Raw.isValid_iff_isUTF8FirstByte]
    by_cases some' : 0 < back.size
    · have inside : cut < text.rawEndPos := by
        rw [size]
        exact Nat.lt_add_of_pos_right some'
      refine Or.inr ⟨inside, ?_⟩
      have inWhole : front.size < (front ++ back).size := by
        rw [ByteArray.size_append]
        omega
      have byte : (front ++ back)[front.size] = back[0] := by
        rw [ByteArray.getElem_append_right (Nat.le_refl _)]
        simp only [Nat.sub_self]
      change (front ++ back)[front.size].IsUTF8FirstByte
      rw [byte]
      exact begins some'
    · have empty : back.size = 0 := Nat.eq_zero_of_not_pos some'
      rw [empty] at size
      exact Or.inl size.symm
  constructor
  · have first := (String.Pos.Raw.isValid_iff_isValidUTF8_extract_zero.mp between).2
    rwa [ByteArray.extract_append_eq_left rfl] at first
  · have second := between.isValidUTF8_extract_utf8ByteSize
    rwa [ByteArray.extract_append_eq_right rfl ?_] at second
    rw [← String.size_toByteArray, ByteArray.size_append]

/-- Bytes with a newline between them are a text if and only if those on either side are: no
character goes on across a newline. -/
theorem isValidUTF8_append_newline_iff (front back : ByteArray) :
    (front ++ "\n".toUTF8 ++ back).IsValidUTF8 ↔ front.IsValidUTF8 ∧ back.IsValidUTF8 := by
  have newline : "\n".toUTF8 = ['\n'].utf8Encode := by decide
  have begins : Begins ("\n".toUTF8 ++ back) := by
    intro some'
    rw [ByteArray.getElem_append_left (by decide)]
    decide
  rw [ByteArray.append_assoc, isValidUTF8_append_iff begins, newline,
    ByteArray.isValidUTF8_utf8Encode_singleton_append_iff]

/-- No character but the newline has a byte ten: the bytes of a longer one are all 128 or more. -/
theorem ten_mem_utf8EncodeChar_iff {c : Char} : (10 : UInt8) ∈ String.utf8EncodeChar c ↔ c = '\n' := by
  constructor
  · intro member
    have small (count : Nat) (same : (10 : UInt8) = UInt8.ofNat count) : count % 256 = 10 := by
      have number := congrArg UInt8.toNat same
      rw [UInt8.toNat_ofNat'] at number
      exact number.symm
    have value : c.val.toNat = 10 := by
      rw [String.utf8EncodeChar] at member
      by_cases one : c.val.toNat ≤ 127
      · rw [if_pos one, List.mem_singleton] at member
        have := small _ member
        omega
      rw [if_neg one] at member
      by_cases two : c.val.toNat ≤ 2047
      · simp only [if_pos two, List.mem_cons, List.not_mem_nil, or_false] at member
        rcases member with same | same <;> have := small _ same <;> omega
      rw [if_neg two] at member
      by_cases three : c.val.toNat ≤ 65535
      · simp only [if_pos three, List.mem_cons, List.not_mem_nil, or_false] at member
        rcases member with same | same | same <;> have := small _ same <;> omega
      · simp only [if_neg three, List.mem_cons, List.not_mem_nil, or_false] at member
        rcases member with same | same | same | same <;> have := small _ same <;> omega
    exact Char.ext (UInt32.toNat_inj.mp value)
  · rintro rfl
    decide

theorem newline_mem_toUTF8_iff {text : String} :
    (10 : UInt8) ∈ text.toUTF8.data ↔ '\n' ∈ text.toList := by
  rw [String.toUTF8_eq_toByteArray, ← String.utf8Encode_toList, List.utf8Encode, List.data_toByteArray,
    List.mem_toArray, List.mem_flatMap]
  simp only [ten_mem_utf8EncodeChar_iff, exists_eq_right]
theorem exists_prefix_of_isValidUTF8 {text : String} {stop : Nat}
    (valid : (text.toUTF8.extract 0 stop).IsValidUTF8) :
    ∃ chars, chars <+: text.toList ∧
      text.toUTF8.extract 0 stop = (String.ofList chars).toUTF8 := by
  obtain ⟨chars, same⟩ := valid
  refine ⟨chars, ?_, by rw [same, String.toUTF8_eq_toByteArray, String.toByteArray_ofList]⟩
  have whole : text.toUTF8 = text.toList.utf8Encode := by
    rw [String.toUTF8_eq_toByteArray, String.utf8Encode_toList]
  refine List.isPrefix_of_utf8Encode_append_eq_utf8Encode
    (text.toUTF8.extract stop text.toUTF8.size) ?_
  rw [← same, ← whole]
  by_cases inside : stop ≤ text.toUTF8.size
  · rw [← ByteArray.extract_eq_extract_append_extract stop (Nat.zero_le _) inside,
      ByteArray.extract_zero_size]
  · have all : text.toUTF8.extract stop text.toUTF8.size = .empty :=
      ByteArray.extract_eq_empty_iff.mpr (by omega)
    have longer : max stop text.toUTF8.size = stop := by omega
    rw [all, ByteArray.append_empty, ← longer, ByteArray.extract_zero_max_size]

end SnippetAudit.Text
