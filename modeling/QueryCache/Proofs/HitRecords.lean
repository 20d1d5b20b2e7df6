import QueryCache.Proofs.Actions
import QueryCache.Schema

/-!
# What a stored hit is read as

The bytes of a hit begin with the text of its query, so whatever hit they are read as belongs to
that query. Nothing is asked here of timestamps, and of identifiers only where the hit is to list
the same ones again; nor is it said that the bytes can be read at all: a text too long for the
length before it cannot.
-/

namespace QueryCache

open Wire

namespace Wire

/-- What two readers in a row read, each of them read. -/
theorem Reader.bind_eq_ok {α β : Type} {first : Reader α} {second : α → Reader β}
    {bytes rest : Bytes} {value : β} :
    (first >>= second) bytes = .ok (value, rest) ↔
      ∃ found middle, first bytes = .ok (found, middle) ∧
        second found middle = .ok (value, rest) := by
  change Reader.bind first second bytes = _ ↔ _
  unfold Reader.bind
  cases first bytes with
  | ok pair =>
      obtain ⟨found, middle⟩ := pair
      simp [and_assoc]
  | error fault => simp

@[simp] theorem Reader.pure_apply {α : Type} (value : α) (bytes : Bytes) :
    (Pure.pure value : Reader α) bytes = .ok (value, bytes) := rfl

/-- Groups are read back as the number they were written for, if at all. -/
theorem readGroups_writeGroups {count value found : Nat} {suffix rest : Bytes}
    (reads : readGroups count (writeGroups count value ++ suffix) = .ok (found, rest)) :
    found = value ∧ rest = suffix := by
  induction count generalizing value found rest with
  | zero => cases reads
  | succ count inductionHypothesis =>
      obtain ⟨byte, middle, first, reads⟩ := Reader.bind_eq_ok.mp reads
      rw [writeGroups] at first
      split at first <;> simp only [List.cons_append, Reader.byte, Except.ok.injEq,
        Prod.mk.injEq] at first <;> obtain ⟨rfl, rfl⟩ := first
      · rename_i small
        have value_toNat : (UInt8.ofNat value).toNat = value := by
          simp only [UInt8.toNat_ofNat']
          omega
        have last : UInt8.ofNat value < 128 := by
          rw [UInt8.lt_iff_toNat_lt, value_toNat]
          exact small
        rw [if_pos last] at reads
        cases reads
        exact ⟨value_toNat, rfl⟩
      · have low_toNat : (UInt8.ofNat (value % 128 + 128)).toNat = value % 128 + 128 := by
          simp only [UInt8.toNat_ofNat']
          omega
        have more : ¬ UInt8.ofNat (value % 128 + 128) < 128 := by
          rw [UInt8.lt_iff_toNat_lt, low_toNat]
          exact Nat.not_lt.mpr (Nat.le_add_left _ _)
        rw [if_neg more] at reads
        obtain ⟨high, middle, others, last⟩ := Reader.bind_eq_ok.mp reads
        obtain ⟨rfl, rfl⟩ := inductionHypothesis others
        cases last
        refine ⟨?_, rfl⟩
        rw [low_toNat]
        omega

/-- An integer of more than one byte is read back as the number it was written for, if at all. -/
theorem readUnsigned_writeUnsigned {width : Width} (wide : width ≠ .w8) {value found : Nat}
    {suffix rest : Bytes}
    (reads : readUnsigned width (writeUnsigned width value ++ suffix) = .ok (found, rest)) :
    found = value ∧ rest = suffix := by
  have groupwise : ((readGroups (groups width) >>= fun value =>
      if value < width.limit then Pure.pure value else Reader.fail .unterminated) : Reader Nat)
        (writeGroups (groups width) value ++ suffix) = .ok (found, rest) := by
    cases width <;> first | exact absurd rfl wide | exact reads
  obtain ⟨number, middle, first, last⟩ := Reader.bind_eq_ok.mp groupwise
  obtain ⟨rfl, rfl⟩ := readGroups_writeGroups first
  split at last
  · cases last
    exact ⟨rfl, rfl⟩
  · cases last

theorem ofUtf8?_utf8 (text : String) : ofUtf8? (utf8 text) = some text := by
  have bytes : (⟨(utf8 text).toArray⟩ : ByteArray) = text.toByteArray := by simp [utf8]
  rw [ofUtf8?, bytes, String.fromUTF8?, dif_pos text.isValidUTF8]
  rfl

/-- A text is read back as itself, if at all. -/
theorem readText_writeText {text found : String} {suffix rest : Bytes}
    (reads : readText (writeText text ++ suffix) = .ok (found, rest)) :
    found = text ∧ rest = suffix := by
  obtain ⟨bytes, middle, first, decoded⟩ := Reader.bind_eq_ok.mp reads
  obtain ⟨length, afterLength, measured, taken⟩ := Reader.bind_eq_ok.mp first
  rw [writeText, writeBytes, List.append_assoc] at measured
  obtain ⟨rfl, rfl⟩ := readUnsigned_writeUnsigned (by decide) measured
  simp only [Reader.take, List.length_append, Nat.le_add_right, if_pos, List.take_left,
    List.drop_left, Except.ok.injEq, Prod.mk.injEq] at taken
  obtain ⟨rfl, rfl⟩ := taken
  rw [ofUtf8?_utf8] at decoded
  cases decoded
  exact ⟨rfl, rfl⟩

end Wire

/-- The payload of an envelope is read from where it was written. -/
theorem Envelope.decode_encode {α : Type} {payload : Reader α} {written : Except WriteFault Bytes}
    {bytes : Bytes} {value : α} (encoded : Envelope.encode written = .ok bytes)
    (decoded : Envelope.decode payload bytes = .ok value) :
    ∃ content rest, written = .ok content ∧ payload content = .ok (value, rest) := by
  cases written with
  | error fault => cases encoded
  | ok content =>
      cases encoded
      unfold Envelope.decode at decoded
      split at decoded
      · rename_i envelope rest reads
        obtain ⟨magic, afterMagic, first, reads⟩ := Reader.bind_eq_ok.mp reads
        obtain ⟨version, afterVersion, second, reads⟩ := Reader.bind_eq_ok.mp reads
        obtain ⟨found, afterPayload, third, last⟩ := Reader.bind_eq_ok.mp reads
        cases last
        cases first
        obtain ⟨rfl, rfl⟩ := readUnsigned_writeUnsigned (by decide) second
        unfold Envelope.contents at decoded
        split at decoded
        · cases decoded
        · split at decoded
          · cases decoded
          · cases decoded
            exact ⟨_, _, rfl, third⟩
      · cases decoded

variable {ι ε : Type}

/-- Identifiers side by side are read back as they were written, if at all, where each of them
is. -/
theorem Hit.many_writeIds {writeId : ι → Except WriteFault Bytes} {readId : Reader ι}
    (readsBack : ∀ id bytes suffix found rest, writeId id = .ok bytes →
      readId (bytes ++ suffix) = .ok (found, rest) → found = id ∧ rest = suffix)
    {ids found : List ι} {bytes suffix rest : Bytes} (written : writeIds writeId ids = .ok bytes)
    (reads : Reader.many readId ids.length (bytes ++ suffix) = .ok (found, rest)) :
    found = ids ∧ rest = suffix := by
  induction ids generalizing found bytes rest with
  | nil =>
      cases written
      cases reads
      exact ⟨rfl, rfl⟩
  | cons id ids inductionHypothesis =>
      rw [writeIds] at written
      cases first : writeId id with
      | error fault =>
          rw [first] at written
          cases written
      | ok firstBytes =>
          rw [first] at written
          cases others : writeIds writeId ids with
          | error fault =>
              rw [others] at written
              cases written
          | ok otherBytes =>
              rw [others] at written
              cases written
              obtain ⟨head, middle, readsHead, reads⟩ := Reader.bind_eq_ok.mp reads
              obtain ⟨tail, last, readsTail, same⟩ := Reader.bind_eq_ok.mp reads
              cases same
              rw [List.append_assoc] at readsHead
              obtain ⟨rfl, rfl⟩ := readsBack _ _ _ _ _ first readsHead
              obtain ⟨rfl, rfl⟩ := inductionHypothesis others readsTail
              exact ⟨rfl, rfl⟩

namespace Schema

variable {schema : Schema ι ε} {hit found : Hit ι} {bytes : Bytes}

/-- A hit may refuse to be written, which is no failure of a context. -/
theorem tolerable_encodeHit (schema : Schema ι ε) (hit : Hit ι) :
    Action.Tolerable (schema.encodeHit hit) := by
  intro e failed
  unfold encodeHit Envelope.encode at failed
  split at failed
  · cases failed
  · cases failed
    rfl

/-- An identifier is read back as it was written, if at all, whatever bytes follow it. -/
def ReadsBack (schema : Schema ι ε) : Prop :=
  ∀ id bytes suffix found rest, (schema.idDatum id).write = .ok bytes →
    schema.readId (bytes ++ suffix) = .ok (found, rest) → found = id ∧ rest = suffix

/-- The bytes of a hit are read as a hit of the same query, and its identifiers from where they were
written. -/
theorem exists_of_decodeHit (encoded : schema.encodeHit hit = .ok bytes)
    (decoded : schema.decodeHit bytes = .ok found) :
    found.queryId = hit.queryId ∧ ∃ ids suffix rest,
      Hit.writeIds (fun id => (schema.idDatum id).write) hit.entityIds = .ok ids ∧
        Reader.many schema.readId hit.entityIds.length (ids ++ suffix) =
          .ok (found.entityIds, rest) := by
  obtain ⟨content, rest, written, reads⟩ := Envelope.decode_encode encoded decoded
  unfold Hit.write at written
  cases idBytes : Hit.writeIds (fun id => (schema.idDatum id).write) hit.entityIds with
  | error fault =>
      rw [idBytes] at written
      cases written
  | ok ids =>
      rw [idBytes] at written
      cases written
      obtain ⟨queryId, afterText, first, others⟩ := Reader.bind_eq_ok.mp reads
      obtain ⟨count, afterCount, second, others⟩ := Reader.bind_eq_ok.mp others
      obtain ⟨entityIds, afterIds, third, others⟩ := Reader.bind_eq_ok.mp others
      obtain ⟨timestamp, afterTimestamp, -, last⟩ := Reader.bind_eq_ok.mp others
      cases last
      rw [List.append_assoc, List.append_assoc] at first
      obtain ⟨rfl, rfl⟩ := readText_writeText first
      obtain ⟨rfl, rfl⟩ := readUnsigned_writeUnsigned (by decide) second
      exact ⟨rfl, ids, _, _, rfl, third⟩

/-- A hit that is read from the bytes of another hit is one of the same query. -/
theorem queryId_of_decodeHit (encoded : schema.encodeHit hit = .ok bytes)
    (decoded : schema.decodeHit bytes = .ok found) : found.queryId = hit.queryId :=
  (exists_of_decodeHit encoded decoded).1

/-- Where identifiers are read back, a hit is read back with what it lists. -/
theorem entityIds_of_decodeHit (readsBack : schema.ReadsBack)
    (encoded : schema.encodeHit hit = .ok bytes) (decoded : schema.decodeHit bytes = .ok found) :
    found.entityIds = hit.entityIds := by
  obtain ⟨-, ids, suffix, rest, written, reads⟩ := exists_of_decodeHit encoded decoded
  exact (Hit.many_writeIds readsBack written reads).1

end Schema

end QueryCache
