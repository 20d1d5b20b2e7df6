import QueryCache.Datum.Binary
import QueryCache.Proofs.HitRecords

/-!
# Reading back what was written

A form that is written can be read back as the value it was written for, whatever bytes follow
it, and the reader stops at its end. So forms that stand one after the other are read back one
after the other. The module has the rules for this and the forms that hold no other forms:
integers of every width, lengths, truth values, characters, texts and bytes.
-/

namespace QueryCache.Wire

/-- The reader reads the value from the bytes, whatever follows them, and leaves what follows. -/
def Reads {α : Type} (reader : Reader α) (bytes : Bytes) (value : α) : Prop :=
  ∀ rest, reader (bytes ++ rest) = .ok (value, rest)

/-- A value can be written, and the reader reads it from what is written. -/
def RoundTrips {α : Type} (written : Except WriteFault Bytes) (reader : Reader α) (value : α) :
    Prop :=
  ∃ bytes, written = .ok bytes ∧ Reads reader bytes value

section Rules

variable {α β : Type} {first : Reader α} {second : α → Reader β} {bytes more : Bytes}
  {found : α} {value : β}

/-- A form that is not followed by anything is read to its end. -/
theorem Reads.whole (reads : Reads first bytes found) : first bytes = .ok (found, []) := by
  have alone := reads []
  rwa [List.append_nil] at alone

theorem Reads.pure (found : α) : Reads (Pure.pure found : Reader α) [] found :=
  fun _ => rfl

theorem Reads.bind (start : Reads first bytes found) (others : Reads (second found) more value) :
    Reads (first >>= second) (bytes ++ more) value := by
  intro rest
  rw [List.append_assoc]
  exact Reader.bind_eq_ok.mpr ⟨found, more ++ rest, start _, others rest⟩

/-- Nothing is read after the first part. -/
theorem Reads.finish (start : Reads first bytes found) (others : Reads (second found) [] value) :
    Reads (first >>= second) bytes value := by
  have both := start.bind others
  rwa [List.append_nil] at both

/-- Nothing is read after the first part, which is taken into the result. -/
theorem Reads.result (start : Reads first bytes found) (result : α → β) :
    Reads (first >>= fun found => Pure.pure (result found)) bytes (result found) :=
  start.finish (Reads.pure _)

theorem reads_byte (byte : UInt8) : Reads Reader.byte [byte] byte :=
  fun _ => rfl

theorem reads_take (bytes : Bytes) : Reads (Reader.take bytes.length) bytes bytes := by
  intro rest
  simp [Reader.take]

theorem Reads.roundTrips (reads : Reads first bytes found) :
    RoundTrips (.ok bytes) first found :=
  ⟨bytes, rfl, reads⟩

/-- A written form behind bytes that are read on their own. -/
theorem RoundTrips.behind {written : Except WriteFault Bytes} (start : Reads first bytes found)
    (others : RoundTrips written (second found) value) :
    RoundTrips (do return bytes ++ (← written)) (first >>= second) value := by
  obtain ⟨more, rfl, reads⟩ := others
  exact ⟨bytes ++ more, rfl, start.bind reads⟩

/-- Two written forms, one after the other. -/
theorem RoundTrips.both {written others : Except WriteFault Bytes}
    (start : RoundTrips written first found) (follows : RoundTrips others (second found) value) :
    RoundTrips (do let bytes ← written; return bytes ++ (← others)) (first >>= second) value := by
  obtain ⟨bytes, rfl, reads⟩ := start
  exact follows.behind reads

/-- Nothing is read after the written form. -/
theorem RoundTrips.finish {written : Except WriteFault Bytes}
    (start : RoundTrips written first found) (others : Reads (second found) [] value) :
    RoundTrips written (first >>= second) value := by
  obtain ⟨bytes, rfl, reads⟩ := start
  exact ⟨bytes, rfl, reads.finish others⟩

/-- Nothing is read after the written form, whose value is taken into the result. -/
theorem RoundTrips.result {written : Except WriteFault Bytes}
    (start : RoundTrips written first found) (result : α → β) :
    RoundTrips written (first >>= fun found => Pure.pure (result found)) (result found) :=
  start.finish (Reads.pure _)

end Rules

/-! ## Integers -/

theorem toNat_ofNat_of_lt {value : Nat} (small : value < 256) :
    (UInt8.ofNat value).toNat = value := by
  rw [UInt8.toNat_ofNat']
  exact Nat.mod_eq_of_lt small

theorem ofNat_lt_128_iff {value : Nat} (small : value < 256) :
    UInt8.ofNat value < 128 ↔ value < 128 := by
  rw [UInt8.lt_iff_toNat_lt, toNat_ofNat_of_lt small]
  rfl

/-- Groups are read back as the number they were written for, if there are enough of them. -/
theorem reads_groups {count value : Nat} (room : value < Nat.pow 128 count)
    (positive : 0 < count) : Reads (readGroups count) (writeGroups count value) value := by
  induction count generalizing value with
  | zero => exact absurd positive (Nat.lt_irrefl 0)
  | succ count inductionHypothesis =>
      rw [writeGroups]
      split
      · rename_i small
        refine (reads_byte _).finish ?_
        rw [if_pos ((ofNat_lt_128_iff (by omega)).mpr small), toNat_ofNat_of_lt (by omega)]
        exact Reads.pure value
      · rename_i large
        have high : value / 128 < Nat.pow 128 count :=
          Nat.div_lt_of_lt_mul (by rwa [Nat.mul_comm])
        have more : 0 < count := by
          refine Nat.pos_of_ne_zero fun none => ?_
          subst none
          exact large room
        refine (reads_byte _).bind ?_
        rw [if_neg (by rw [ofNat_lt_128_iff (by omega)]; omega), toNat_ofNat_of_lt (by omega)]
        refine (inductionHypothesis high more).finish ?_
        have whole : value % 128 + 128 - 128 + 128 * (value / 128) = value := by omega
        rw [whole]
        exact Reads.pure value

/-- The groups of a width have room for its integers. -/
theorem limit_le_groups (width : Width) :
    width.limit ≤ Nat.pow 128 (groups width) ∧ 0 < groups width := by
  cases width <;> decide

theorem reads_unsigned {width : Width} {value : Nat} (fits : value < width.limit) :
    Reads (readUnsigned width) (writeUnsigned width value) value := by
  obtain ⟨room, positive⟩ := limit_le_groups width
  by_cases narrow : width = .w8
  · subst narrow
    refine (reads_byte _).finish ?_
    rw [toNat_ofNat_of_lt fits]
    exact Reads.pure value
  · have grouped : Reads (readGroups (groups width) >>= fun value =>
        if value < width.limit then Pure.pure value else Reader.fail .unterminated)
        (writeGroups (groups width) value) value := by
      refine (reads_groups (Nat.lt_of_lt_of_le fits room) positive).finish ?_
      rw [if_pos fits]
      exact Reads.pure value
    cases width <;> first | exact absurd rfl narrow | exact grouped

theorem unfold_fold (value : Int) : unfold (fold value) = value := by
  unfold unfold fold
  split <;> split <;> omega

theorem fold_lt_limit {width : Width} {value : Int} (low : -(width.signedLimit : Int) ≤ value)
    (high : value < width.signedLimit) : fold value < width.limit := by
  have double : width.limit = 2 * width.signedLimit := by cases width <;> decide
  unfold fold
  split <;> omega

theorem reads_signed {width : Width} {value : Int} (low : -(width.signedLimit : Int) ≤ value)
    (high : value < width.signedLimit) :
    Reads (readSigned width) (writeSigned width value) value := by
  by_cases narrow : width = .w8
  · subst narrow
    have bound : Width.w8.signedLimit = 128 := by decide
    rw [bound] at low high
    refine (reads_byte _).finish ?_
    have place : (value % 256).toNat < 256 := by omega
    by_cases negative : value < 0
    · rw [if_neg (by rw [ofNat_lt_128_iff place]; omega), toNat_ofNat_of_lt place]
      have shifted : ((value % 256).toNat : Int) - 256 = value := by omega
      rw [shifted]
      exact Reads.pure value
    · rw [if_pos (by rw [ofNat_lt_128_iff place]; omega), toNat_ofNat_of_lt place]
      have same : ((value % 256).toNat : Int) = value := by omega
      rw [same]
      exact Reads.pure value
  · have folded : Reads (readUnsigned width >>= fun place => Pure.pure (unfold place))
        (writeUnsigned width (fold value)) value := by
      refine (reads_unsigned (fold_lt_limit low high)).finish ?_
      rw [unfold_fold]
      exact Reads.pure value
    cases width <;> first | exact absurd rfl narrow | exact folded

theorem reads_length {length : Nat} (fits : length < Width.w64.limit) :
    Reads readLength (writeLength length) length :=
  reads_unsigned fits

/-! ## Truth values and marks -/

theorem reads_bool (value : Bool) : Reads readBool [if value then 1 else 0] value := by
  intro rest
  cases value <;> rfl

theorem reads_mark (follows : Bool) : Reads readMark [if follows then 1 else 0] follows := by
  intro rest
  cases follows <;> rfl

/-! ## Bytes and texts -/

theorem reads_bytes {bytes : Bytes} (fits : bytes.length < Width.w64.limit) :
    Reads readBytes (writeBytes bytes) bytes :=
  (reads_length fits).bind (reads_take bytes)

@[simp] theorem length_utf8 (text : String) : (utf8 text).length = text.utf8ByteSize := by
  simp [utf8]

theorem reads_text {text : String} (fits : text.utf8ByteSize < Width.w64.limit) :
    Reads readText (writeText text) text := by
  refine (reads_bytes (by rwa [length_utf8])).finish ?_
  rw [ofUtf8?_utf8]
  exact Reads.pure text

/-- A character takes four bytes at most. -/
theorem utf8ByteSize_ofList_le (chars : List Char) :
    (String.ofList chars).utf8ByteSize ≤ 4 * chars.length := by
  induction chars with
  | nil => exact Nat.le_refl 0
  | cons c chars inductionHypothesis =>
      have one : (String.ofList [c]).utf8ByteSize ≤ 4 := by simpa using c.utf8Size_le_four
      rw [← List.singleton_append, String.ofList_append, String.utf8ByteSize_append,
        List.length_append, List.length_singleton]
      omega

theorem reads_char (c : Char) : Reads readChar (writeChar c) c := by
  have short : (utf8 (String.ofList [c])).length ≤ 4 := by
    rw [length_utf8]
    exact utf8ByteSize_ofList_le [c]
  have fits : (utf8 (String.ofList [c])).length < Width.w64.limit :=
    Nat.lt_of_le_of_lt short (by decide)
  refine (reads_length fits).bind ?_
  rw [if_neg (Nat.not_lt.mpr short)]
  refine (reads_take _).finish ?_
  rw [ofUtf8?_utf8, Option.map_some, String.toList_ofList]
  exact Reads.pure c

theorem length_littleEndian (count value : Nat) : (littleEndian count value).length = count := by
  induction count generalizing value with
  | zero => rfl
  | succ count inductionHypothesis => simp [littleEndian, inductionHypothesis]

theorem ofLittleEndian_littleEndian {count value : Nat} (room : value < Nat.pow 256 count) :
    ofLittleEndian (littleEndian count value) = value := by
  induction count generalizing value with
  | zero =>
      have none : value = 0 := Nat.lt_one_iff.mp room
      rw [none]
      rfl
  | succ count inductionHypothesis =>
      have high : value / 256 < Nat.pow 256 count :=
        Nat.div_lt_of_lt_mul (by rwa [Nat.mul_comm])
      rw [littleEndian, ofLittleEndian, inductionHypothesis high, toNat_ofNat_of_lt (by omega)]
      omega

/-- The bytes of a number are taken as they are and read as the number. -/
theorem reads_littleEndian {β : Type} (result : Nat → β) {count value : Nat}
    (room : value < Nat.pow 256 count) :
    Reads (Reader.take count >>= fun bytes => Pure.pure (result (ofLittleEndian bytes)))
      (littleEndian count value) (result value) := by
  have taken := reads_take (littleEndian count value)
  rw [length_littleEndian] at taken
  refine taken.finish ?_
  rw [ofLittleEndian_littleEndian room]
  exact Reads.pure (result value)

end QueryCache.Wire
