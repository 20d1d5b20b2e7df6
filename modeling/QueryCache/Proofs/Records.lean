import QueryCache.Proofs.Moments
import QueryCache.Proofs.Shapes
import QueryCache.Simulation.Entry

/-!
# Stored records decode to themselves

A record is stored as its data behind the labels of the cache. What is stored is read back as
the record itself, whatever its shape is, and so are the two kinds of records that the cache
keeps: copies of entities and hits. Nothing that is read back is assumed to be readable; that
the bytes can be read is part of the statement.

One kind of hit is not read back as itself. The text of a leap second that does not stand at the end
of a minute tells of the second behind it, and a hit with such a timestamp is read back with that
second.
-/

namespace QueryCache

open Wire Time Simulation

/-! ## Envelopes -/

/-- Whatever labels an envelope bears, its payload is read from where it was written. -/
theorem Envelope.read_write {α : Type} (payload : Reader α) {magic : Bytes}
    (four : magic.length = 4) (version : UInt32) (content : Bytes) :
    Envelope.read payload (Envelope.write ⟨magic, version, content⟩) =
      (payload content).map fun found => (⟨magic, version, found.1⟩, found.2) := by
  have taken := reads_take magic
  rw [four] at taken
  have numbered : Reads (readUnsigned .w32) (writeUnsigned .w32 version.toNat) version.toNat :=
    reads_unsigned version.toNat_lt
  rw [Envelope.write, List.append_assoc]
  change Reader.bind _ _ _ = _
  rw [Reader.bind, taken]
  change Reader.bind _ _ _ = _
  rw [Reader.bind, numbered]
  change Reader.bind _ _ _ = _
  rw [Reader.bind, UInt32.ofNat_toNat]
  cases payload content <;> rfl

/-- A payload that is read back is read back from its envelope. -/
theorem Envelope.reads_wrap {α : Type} {payload : Reader α} {content : Bytes} {value : α}
    (reads : Reads payload content value) :
    Reads (Envelope.read payload) (wrap content).write (wrap value) := by
  intro rest
  have behind : (wrap content).write ++ rest = (wrap (content ++ rest)).write :=
    List.append_assoc ..
  rw [behind, wrap, Envelope.read_write payload rfl, reads]
  rfl

/-- What can be written and read back is read back from its envelope. -/
theorem Envelope.decode_of_roundTrips {α : Type} {written : Except WriteFault Bytes}
    {payload : Reader α} {value : α} (trips : RoundTrips written payload value) :
    ∃ bytes, Envelope.encode written = .ok bytes ∧ Envelope.decode payload bytes = .ok value := by
  obtain ⟨content, rfl, reads⟩ := trips
  refine ⟨_, rfl, ?_⟩
  rw [Envelope.decode, (Envelope.reads_wrap reads).whole]
  rfl

/-! ## Hits -/

/-- The text of a moment is read as the moment of which it tells. -/
theorem Hit.reads_timestamp {moment : Timestamp} (valid : moment.IsValid) :
    Reads Hit.readTimestamp (writeText moment.text) moment.told := by
  have fits : moment.text.utf8ByteSize < Width.w64.limit := by
    have size := utf8ByteSize_ofList_le moment.chars
    have length := Timestamp.length_chars_le valid
    have room : 160 < Width.w64.limit := by decide
    rw [Timestamp.text]
    omega
  refine (reads_text fits).finish ?_
  rw [Timestamp.ofText?_text valid]
  exact Reads.pure moment.told

/-- The hit that is read back for a hit. -/
def Hit.told {ι : Type} (hit : Hit ι) : Hit ι :=
  { hit with timestamp := hit.timestamp.told }

theorem Hit.told_eq_self {ι : Type} {hit : Hit ι} (regular : ¬ hit.timestamp.IsStray) :
    hit.told = hit := by
  rw [told, Timestamp.told_eq_self_iff.mpr regular]

section Hits

variable {ι : Type} {writeId : ι → Except WriteFault Bytes} {readId : Reader ι}

/-- Identifiers are read back in their number and order. -/
theorem Hit.roundTrips_ids {ids : List ι}
    (each : ∀ id ∈ ids, RoundTrips (writeId id) readId id) :
    RoundTrips (Hit.writeIds writeId ids) (Reader.many readId ids.length) ids := by
  induction ids with
  | nil => exact (Reads.pure []).roundTrips
  | cons id ids inductionHypothesis =>
      rw [List.forall_mem_cons] at each
      exact each.1.both ((inductionHypothesis each.2).result (id :: ·))

/-- A hit is read back where the identifiers it lists are, with the moment of which its text tells.
-/
theorem Hit.roundTrips {hit : Hit ι} (text : hit.queryId.utf8ByteSize < Width.w64.limit)
    (count : hit.entityIds.length < Width.w64.limit)
    (each : ∀ id ∈ hit.entityIds, RoundTrips (writeId id) readId id)
    (valid : hit.timestamp.IsValid) :
    RoundTrips (hit.write writeId) (Hit.read readId) hit.told := by
  obtain ⟨ids, written, reads⟩ := Hit.roundTrips_ids each
  have timestamp := (Hit.reads_timestamp valid).result
    (⟨hit.queryId, hit.entityIds, ·⟩ : Timestamp → Hit ι)
  refine ⟨_, ?_, (reads_text text).bind ((reads_length count).bind (reads.bind timestamp))⟩
  rw [Hit.write, written]
  exact congrArg Except.ok (by simp only [List.append_assoc])

end Hits

/-! ## Kinds of identifiers -/

namespace Simulation

/-- The kind writes an identifier as a datum of its shape and finds it again in that datum. -/
def IdKind.Represents {ι : Type} (kind : IdKind ι) (id : ι) : Prop :=
  kind.shape.Holds (kind.toDatum id) ∧ kind.ofDatum? (kind.toDatum id) = some id

variable {ι : Type} {kind : IdKind ι}

theorem IdKind.Represents.roundTrips {id : ι} (represents : kind.Represents id) :
    RoundTrips (kind.toDatum id).write kind.read id := by
  refine (Shape.roundTrips kind.shape _ represents.1).finish ?_
  rw [represents.2]
  exact Reads.pure id

theorem IdKind.represents_natural (id : UInt64) : IdKind.natural.Represents id :=
  ⟨⟨rfl, id.toNat_lt⟩, congrArg some UInt64.ofNat_toNat⟩

theorem IdKind.represents_integer (id : Int64) : IdKind.integer.Represents id :=
  ⟨⟨rfl, id.le_toInt, id.toInt_lt⟩, congrArg some (Int64.ofInt_toInt id)⟩

theorem IdKind.represents_text {id : String} (fits : id.utf8ByteSize < Width.w64.limit) :
    IdKind.text.Represents id :=
  ⟨fits, rfl⟩

theorem IdKind.represents_option : ∀ id : Option UInt32, IdKind.option.Represents id
  | none => ⟨trivial, rfl⟩
  | some number => ⟨⟨rfl, number.toNat_lt⟩, congrArg (some ∘ some) UInt32.ofNat_toNat⟩

/-- An entity is read back where its identifier is. -/
theorem Entry.roundTrips {entry : Entry ι} (represents : kind.Represents entry.id)
    (fits : entry.text.utf8ByteSize < Width.w64.limit) :
    RoundTrips (entry.toDatum kind).write (Entry.readPlain kind) entry := by
  have text : RoundTrips (Datum.writeFields [("v", .text entry.text)])
      (readText >>= fun text => Pure.pure (⟨entry.id, text⟩ : Entry ι)) entry := by
    have written : Datum.writeFields [("v", .text entry.text)] = .ok (writeText entry.text) :=
      congrArg Except.ok (List.append_nil _)
    rw [written]
    exact ((reads_text fits).result (⟨entry.id, ·⟩ : String → Entry ι)).roundTrips
  exact represents.roundTrips.both text

/-- Stored records decode to themselves: data of every shape; hits with every text of a query,
every list of identifiers and every moment but the leap seconds away from the end of a minute; and
entities. A hit with such a leap second decodes to the hit with the second behind it. Lengths are
those that 64 bits tell. -/
theorem decode_encode_records :
    (∀ (shape : Shape) (datum : Datum), shape.Holds datum →
      ∃ bytes, Envelope.encode datum.write = .ok bytes ∧
        Envelope.decode shape.read bytes = .ok datum) ∧
    (∀ {ι : Type} (kind : IdKind ι) (hit : Hit ι),
      hit.queryId.utf8ByteSize < Width.w64.limit → hit.entityIds.length < Width.w64.limit →
      (∀ id ∈ hit.entityIds, kind.Represents id) → hit.timestamp.IsValid →
      ∃ bytes, kind.schema.encodeHit hit = .ok bytes ∧
        kind.schema.decodeHit bytes = .ok hit.told ∧
        (hit.told = hit ↔ ¬ hit.timestamp.IsStray)) ∧
    ∀ {ι : Type} (kind : IdKind ι) (entry : Entry ι),
      entry.text.utf8ByteSize < Width.w64.limit → kind.Represents entry.id →
      ∃ bytes, entry.encodePlain kind = .ok bytes ∧ Entry.decodePlain kind bytes = .ok entry := by
  refine ⟨fun shape datum holds => ?_, fun kind hit text count represents valid => ?_,
    fun kind entry fits represents => ?_⟩
  · exact Envelope.decode_of_roundTrips (Shape.roundTrips shape datum holds)
  · obtain ⟨bytes, encoded, decoded⟩ := Envelope.decode_of_roundTrips (Hit.roundTrips text count
      (fun id present => (represents id present).roundTrips) valid)
    refine ⟨bytes, encoded, decoded, fun same => ?_, Hit.told_eq_self⟩
    exact Timestamp.told_eq_self_iff.mp (congrArg Hit.timestamp same)
  · exact Envelope.decode_of_roundTrips (Entry.roundTrips represents fits)

/-- Half of a leap second at five seconds past a minute. -/
def strayLeapSecond : Timestamp := ⟨1704164645, 1500000000⟩

theorem isValid_strayLeapSecond : strayLeapSecond.IsValid := by
  unfold Timestamp.IsValid
  decide +kernel

example : strayLeapSecond.text = "2024-01-02T03:04:06.500Z" := by decide +kernel

/-- The hit of half of a leap second at five seconds past a minute. -/
def strayHit : Hit UInt64 := ⟨"all", [7], strayLeapSecond⟩

theorem strayHit_roundTrips :
    RoundTrips (strayHit.write fun id => (IdKind.natural.toDatum id).write)
      (Hit.read IdKind.natural.read) ⟨"all", [7], ⟨1704164646, 500000000⟩⟩ :=
  Hit.roundTrips (by decide +kernel) (by decide)
    (fun id _ => (IdKind.represents_natural id).roundTrips) isValid_strayLeapSecond

/-- A hit with a leap second away from the end of a minute is not read back as itself. -/
theorem strayLeapSecond_not_decoded :
    strayHit.timestamp.IsValid ∧
      ∃ bytes, IdKind.natural.schema.encodeHit strayHit = .ok bytes ∧
        IdKind.natural.schema.decodeHit bytes = .ok ⟨"all", [7], ⟨1704164646, 500000000⟩⟩ ∧
        IdKind.natural.schema.decodeHit bytes ≠ .ok strayHit := by
  obtain ⟨bytes, encoded, decoded⟩ := Envelope.decode_of_roundTrips strayHit_roundTrips
  refine ⟨isValid_strayLeapSecond, bytes, encoded, decoded, fun same => ?_⟩
  have kept := Except.ok.inj (decoded.symm.trans same)
  revert kept
  decide

/-- A leap second of the year before the year 0, half over. -/
def ancientLeapSecond : Timestamp := ⟨-62167219201, 1500000000⟩

theorem isValid_ancientLeapSecond : ancientLeapSecond.IsValid := by
  unfold Timestamp.IsValid
  decide +kernel

example : ancientLeapSecond.text = "-0001-12-31T23:59:60.500Z" := by decide +kernel

/-- Nothing, or a map from texts to lists of small numbers, some of them absent. -/
def sampleShape : Shape :=
  .choice [("None", .none), ("Rows", .wrap (.map .text (.list (.option (.signed .w8)))))]

/-- A map of that shape. -/
def sampleRows : Datum :=
  .wrapCase 1 "Rows"
    (.map [(.text "a", .list [.present (.signed .w8 (-128)), .absent]), (.text "b", .list [])])

/-- A choice whose second case holds a map from texts to lists of small numbers, some absent; a
hit of two numbers and an ancient moment; and an entity. -/
theorem decode_encode_records_samples :
    (∃ bytes, Envelope.encode sampleRows.write = .ok bytes ∧
      Envelope.decode sampleShape.read bytes = .ok sampleRows) ∧
    (∃ bytes, IdKind.natural.schema.encodeHit ⟨"all", [7, 0], ancientLeapSecond⟩ = .ok bytes ∧
      IdKind.natural.schema.decodeHit bytes = .ok ⟨"all", [7, 0], ancientLeapSecond⟩) ∧
    ∃ bytes, Entry.encodePlain IdKind.option ⟨some 7, "seven"⟩ = .ok bytes ∧
      Entry.decodePlain IdKind.option bytes = .ok ⟨some 7, "seven"⟩ := by
  obtain ⟨data, hits, entries⟩ := decode_encode_records
  have hit : ∃ bytes,
      IdKind.natural.schema.encodeHit ⟨"all", [7, 0], ancientLeapSecond⟩ = .ok bytes ∧
        IdKind.natural.schema.decodeHit bytes = .ok ⟨"all", [7, 0], ancientLeapSecond⟩ := by
    obtain ⟨bytes, encoded, decoded, told⟩ := hits IdKind.natural
      ⟨"all", [7, 0], ancientLeapSecond⟩ (by decide +kernel) (by decide)
      (fun id _ => IdKind.represents_natural id) isValid_ancientLeapSecond
    exact ⟨bytes, encoded, (told.mpr (by decide)) ▸ decoded⟩
  refine ⟨data _ _ ?_, hit, entries _ _ ?_ ?_⟩
  · refine .inr (.inl ⟨by decide, rfl, rfl, by decide, ?_, ?_⟩)
    · simp [Datum.Ascending, Datum.order]
      decide
    · simp [Shape.Holds]
      decide
  · decide +kernel
  · exact IdKind.represents_option _

end Simulation

end QueryCache
