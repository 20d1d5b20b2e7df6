import QueryCache.Proofs.Delimitation

/-!
# Records under other labels

What was stored under other magic bytes or another version is refused, and what for is told by its
labels. But the labels are looked at after the whole envelope has been read, so they decide only
where the payload can be read as what is looked for. A record whose last fields are gone by now is
refused for its labels. A record that has got further fields since was written too short: it is
refused for that, whatever its labels are.
-/

namespace QueryCache

open Wire

/-! ## Fields that follow one another -/

section Fields

variable {kept renamed gained lost : List (String × Shape)} {fields : List (String × Datum)}

theorem Datum.writeFields_append {more : List (String × Datum)} {front back : Bytes}
    (first : writeFields fields = .ok front) (second : writeFields more = .ok back) :
    writeFields (fields ++ more) = .ok (front ++ back) := by
  induction fields generalizing front with
  | nil =>
      cases first
      exact second
  | cons field fields inductionHypothesis =>
      obtain ⟨name, value⟩ := field
      rw [writeFields] at first
      cases one : value.write with
      | error fault =>
          rw [one] at first
          cases first
      | ok head =>
          cases others : writeFields fields with
          | error fault =>
              rw [one, others] at first
              cases first
          | ok tail =>
              rw [one, others] at first
              cases first
              rw [List.cons_append, writeFields, one, inductionHypothesis others]
              exact congrArg Except.ok (List.append_assoc head tail back).symm

/-- The fields of two lists of shapes are those of the first and then those of the second. -/
theorem Shape.holdFields_append (holds : HoldFields (kept ++ lost) fields) :
    ∃ first second, fields = first ++ second ∧ HoldFields kept first ∧ HoldFields lost second := by
  induction kept generalizing fields with
  | nil => exact ⟨[], fields, rfl, trivial, holds⟩
  | cons shape kept inductionHypothesis =>
      cases fields with
      | nil => exact holds.elim
      | cons field fields =>
          obtain ⟨named, held, others⟩ := holds
          obtain ⟨first, second, rfl, front, back⟩ := inductionHypothesis others
          exact ⟨field :: first, second, rfl, ⟨named, held, front⟩, back⟩

/-- The bytes of fields do not tell their names. -/
theorem Shape.holdFields_rename (holds : HoldFields kept fields)
    (same : renamed.map Prod.snd = kept.map Prod.snd) :
    ∃ others, HoldFields renamed others ∧ Datum.writeFields others = Datum.writeFields fields := by
  induction kept generalizing renamed fields with
  | nil =>
      cases List.map_eq_nil_iff.mp same
      exact ⟨fields, holds, rfl⟩
  | cons shape kept inductionHypothesis =>
      obtain ⟨⟨name, shape'⟩, renamed, rfl, alike, others⟩ := List.map_eq_cons_iff.mp same
      subst alike
      cases fields with
      | nil => exact holds.elim
      | cons field fields =>
          obtain ⟨-, held, rest⟩ := holds
          obtain ⟨fields', held', written⟩ := inductionHypothesis rest others
          refine ⟨(name, field.2) :: fields', ⟨rfl, held, held'⟩, ?_⟩
          rw [Datum.writeFields, Datum.writeFields, written]

/-- What stops the further fields stops the reading of all of them. -/
theorem Shape.readFields_append_of_error {bytes rest : Bytes} {fault : ReadFault}
    (start : readFields kept bytes = .ok (fields, rest))
    (stops : readFields gained rest = .error fault) :
    readFields (kept ++ gained) bytes = .error fault := by
  induction kept generalizing bytes fields with
  | nil =>
      cases start
      exact stops
  | cons shape kept inductionHypothesis =>
      obtain ⟨value, middle, first, others⟩ := Reader.bind_eq_ok.mp start
      obtain ⟨front, left, read, result⟩ := Reader.bind_eq_ok.mp others
      cases result
      refine Reader.bind_eq_error.mpr (.inr ⟨value, middle, first, ?_⟩)
      exact Reader.bind_eq_error.mpr (.inl (inductionHypothesis read))

/-- Fields that take up bytes are not read from none. -/
theorem Shape.readFields_nil {more : List (String × Datum)} {back : Bytes}
    (holds : HoldFields gained more) (written : Datum.writeFields more = .ok back)
    (nonempty : back ≠ []) : readFields gained [] = .error .endOfInput := by
  obtain ⟨bytes, written', reads⟩ := roundTrips_fields gained more holds
  cases written.symm.trans written'
  exact reads.cut (stable_fields gained) (List.nil_prefix) nonempty.symm

end Fields

/-! ## Envelopes -/

namespace Envelope

/-- The error for stored bytes that begin with other bytes than the magic ones. -/
def strangeMagic (magic : Bytes) : Error :=
  .invalidEntry ("Invalid magic: expected " ++ bytesText standardMagic ++ ", got " ++
    bytesText magic)

/-- What was stored under the labels is refused for them, unless they are those of this cache. -/
structure Refused {α : Type} (magic : Bytes) (version : UInt32) (decoded : Except Error α) :
    Prop where
  strange : magic ≠ standardMagic → decoded = .error (strangeMagic magic)
  outdated : magic = standardMagic → version ≠ currentVersion →
    decoded = .error (.versionMismatch currentVersion version)

theorem refused_contents {α : Type} (envelope : Envelope α) :
    Refused envelope.magic envelope.version envelope.contents where
  strange other := if_pos other
  outdated usual other := by rw [contents, if_neg (absurd usual), if_pos other]

section Decode

variable {α : Type} {payload : Reader α} {magic content : Bytes} {version : UInt32}

/-- The labels decide where the payload can be read. -/
theorem refused_of_read (four : magic.length = 4) {found : α × Bytes}
    (reads : payload content = .ok found) :
    Refused magic version (decode payload (write ⟨magic, version, content⟩)) := by
  rw [decode, read_write payload four, reads]
  exact refused_contents ⟨magic, version, found.1⟩

/-- The labels are not looked at where the payload cannot be read. -/
theorem decode_of_unread (four : magic.length = 4) {fault : ReadFault}
    (unread : payload content = .error fault) :
    decode payload (write ⟨magic, version, content⟩) =
      .error (.deserialization fault.message) := by
  rw [decode, read_write payload four, unread]
  rfl

end Decode

/-- Labels are looked at last. What is stored under other labels is refused for them exactly if its
payload can be read as what is looked for, and else for its payload. So data of a shape that has not
changed, and records whose last fields are gone by now, are refused for their labels, while a record
that has got further fields is refused because it ends too early, whatever its labels are. -/
theorem labels_are_looked_at_last (magic : Bytes) (four : magic.length = 4) (version : UInt32) :
    (∀ {α : Type} (payload : Reader α) (content : Bytes),
        (∀ found, payload content = .ok found →
          Refused magic version (decode payload (write ⟨magic, version, content⟩))) ∧
        ∀ fault, payload content = .error fault →
          decode payload (write ⟨magic, version, content⟩) =
            .error (.deserialization fault.message)) ∧
    (∀ (shape : Shape) (datum : Datum), shape.Holds datum →
      ∃ content, datum.write = .ok content ∧
        Refused magic version (decode shape.read (write ⟨magic, version, content⟩))) ∧
    (∀ (kept renamed lost : List (String × Shape)) (fields : List (String × Datum)),
      Shape.HoldFields (kept ++ lost) fields → renamed.map Prod.snd = kept.map Prod.snd →
      ∃ content, (Datum.record fields).write = .ok content ∧
        Refused magic version
          (decode (Shape.record renamed).read (write ⟨magic, version, content⟩))) ∧
    ∀ (kept renamed gained : List (String × Shape)) (fields more : List (String × Datum))
      (back : Bytes),
      Shape.HoldFields kept fields → renamed.map Prod.snd = kept.map Prod.snd →
      Shape.HoldFields gained more → Datum.writeFields more = .ok back → back ≠ [] →
      ∃ content, (Datum.record fields).write = .ok content ∧
        decode (Shape.record (renamed ++ gained)).read (write ⟨magic, version, content⟩) =
          .error (.deserialization ReadFault.endOfInput.message) := by
  refine ⟨fun payload content => ⟨fun found => refused_of_read four,
    fun fault => decode_of_unread four⟩, ?_, ?_, ?_⟩
  · intro shape datum holds
    obtain ⟨content, written, reads⟩ := Shape.roundTrips shape datum holds
    exact ⟨content, written, refused_of_read four reads.whole⟩
  · intro kept renamed lost fields holds same
    obtain ⟨first, second, rfl, front, back⟩ := Shape.holdFields_append holds
    obtain ⟨others, held, alike⟩ := Shape.holdFields_rename front same
    obtain ⟨content, written, reads⟩ := Shape.roundTrips_fields renamed others held
    obtain ⟨rest, follows, -⟩ := Shape.roundTrips_fields lost second back
    rw [alike] at written
    have record := reads.result Datum.record
    exact ⟨content ++ rest, Datum.writeFields_append written follows,
      refused_of_read four (record rest)⟩
  · intro kept renamed gained fields more back holds same gains written nonempty
    obtain ⟨others, held, alike⟩ := Shape.holdFields_rename holds same
    obtain ⟨content, whole, reads⟩ := Shape.roundTrips_fields renamed others held
    rw [alike] at whole
    refine ⟨content, whole, decode_of_unread four ?_⟩
    have stops := Shape.readFields_append_of_error reads.whole
      (Shape.readFields_nil gains written nonempty)
    exact Reader.bind_eq_error.mpr (.inl stops)

/-- The number 7 and its name. -/
def namedFields : List (String × Datum) := [("id", .unsigned .w64 7), ("name", .text "seven")]

/-- Under version 2, a record of a number and a name is refused for its version where the name is
gone by now, and one of a number alone ends too early where a name is looked for behind it. -/
theorem labels_are_looked_at_last_named :
    (∃ content, (Datum.record namedFields).write = .ok content ∧
      decode (Shape.record [("number", .unsigned .w64)]).read
          (write ⟨standardMagic, 2, content⟩) =
        .error (.versionMismatch currentVersion 2)) ∧
    ∃ content, (Datum.record (namedFields.take 1)).write = .ok content ∧
      decode (Shape.record [("number", .unsigned .w64), ("name", .text)]).read
          (write ⟨standardMagic, 2, content⟩) =
        .error (.deserialization ReadFault.endOfInput.message) := by
  have number : Width.w64.limit > 7 := by decide
  have name : "seven".utf8ByteSize < Width.w64.limit := by decide
  obtain ⟨-, -, lost, gained⟩ := labels_are_looked_at_last standardMagic rfl 2
  obtain ⟨content, written, refused⟩ := lost [("id", .unsigned .w64)] [("number", .unsigned .w64)]
    [("name", .text)] namedFields ⟨rfl, ⟨rfl, number⟩, rfl, name, trivial⟩ rfl
  obtain ⟨content', written', ends⟩ := gained [("id", .unsigned .w64)]
    [("number", .unsigned .w64)] [("name", .text)] (namedFields.take 1) (namedFields.drop 1) _
    ⟨rfl, ⟨rfl, number⟩, trivial⟩ rfl ⟨rfl, name, trivial⟩ rfl (by decide)
  exact ⟨⟨content, written, refused.outdated rfl (by decide)⟩, content', written', ends⟩

/-- The number 7 alone, stored under version 2 and looked for with a name behind it. -/
theorem unnamed_record_not_refused_for_version :
    ∃ content, (Datum.record [("id", .unsigned .w64 7)]).write = .ok content ∧
      decode (Shape.record [("id", .unsigned .w64), ("name", .text)]).read
          (write ⟨standardMagic, 2, content⟩) ≠ .error (.versionMismatch currentVersion 2) ∧
      ∀ text, decode (Shape.record [("id", .unsigned .w64), ("name", .text)]).read
          (write ⟨[0x58, 0x58, 0x58, 0x58], 2, content⟩) ≠ .error (.invalidEntry text) := by
  have unread : (Shape.record [("id", .unsigned .w64), ("name", .text)]).read [7] =
      .error .endOfInput := rfl
  refine ⟨[7], rfl, ?_, fun text => ?_⟩
  · rw [decode_of_unread rfl unread]
    nofun
  · rw [decode_of_unread rfl unread]
    nofun

end Envelope

end QueryCache
