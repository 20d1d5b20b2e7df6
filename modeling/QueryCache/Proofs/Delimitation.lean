import QueryCache.Proofs.Records

/-!
# Records are self-delimiting

A reader is stable if what it has come to does not change when more bytes follow. Only of bytes that
end within a value it says nothing for good. So a form that is read back whatever follows it cannot
be read from less: where it is cut, a stable reader gets to the end of the bytes. All readers of
records are stable, which is seen from how they are built and not from what was written.
-/

namespace QueryCache

open Wire Time Simulation

namespace Wire

/-- What the reader comes to stays when more bytes follow, unless it comes to their end. -/
structure Reader.Stable {α : Type} (reader : Reader α) : Prop where
  value : ∀ {bytes value rest}, reader bytes = .ok (value, rest) →
    ∀ more, reader (bytes ++ more) = .ok (value, rest ++ more)
  fault : ∀ {bytes fault}, reader bytes = .error fault → fault ≠ .endOfInput →
    ∀ more, reader (bytes ++ more) = .error fault

/-- A form that is read back is read to its end: where it is cut, the bytes end too early. -/
theorem Reads.cut {α : Type} {reader : Reader α} {bytes cut : Bytes} {value : α}
    (reads : Reads reader bytes value) (stable : reader.Stable) (isPrefix : cut <+: bytes)
    (proper : cut ≠ bytes) : reader cut = .error .endOfInput := by
  obtain ⟨more, rfl⟩ := isPrefix
  have whole := reads.whole
  cases outcome : reader cut with
  | ok found =>
      obtain ⟨other, rest⟩ := found
      have longer := stable.value outcome more
      rw [whole, Except.ok.injEq, Prod.mk.injEq, List.nil_eq, List.append_eq_nil_iff] at longer
      rw [longer.2.2, List.append_nil] at proper
      exact absurd rfl proper
  | error fault =>
      by_cases early : fault = .endOfInput
      · rw [early]
      · cases whole.symm.trans (stable.fault outcome early more)

namespace Reader

section Rules

variable {α β : Type}

theorem stable_pure (value : α) : (Pure.pure value : Reader α).Stable where
  value := by
    rintro bytes _ _ ⟨⟩ more
    rfl
  fault := nofun

theorem stable_fail (fault : ReadFault) : (fail fault : Reader α).Stable where
  value := nofun
  fault := by
    rintro bytes _ ⟨⟩ _ more
    rfl

theorem bind_eq_error {first : Reader α} {second : α → Reader β} {bytes : Bytes}
    {fault : ReadFault} :
    (first >>= second) bytes = .error fault ↔
      first bytes = .error fault ∨
        ∃ found rest, first bytes = .ok (found, rest) ∧ second found rest = .error fault := by
  change Reader.bind first second bytes = _ ↔ _
  unfold Reader.bind
  cases first bytes with
  | ok pair =>
      obtain ⟨found, middle⟩ := pair
      simp [and_assoc]
  | error fault => simp

theorem Stable.bind {first : Reader α} {second : α → Reader β} (atFirst : first.Stable)
    (atSecond : ∀ found, (second found).Stable) : (first >>= second).Stable where
  value reads more := by
    obtain ⟨found, middle, start, others⟩ := bind_eq_ok.mp reads
    exact bind_eq_ok.mpr
      ⟨found, middle ++ more, atFirst.value start more, (atSecond found).value others more⟩
  fault stops other more := by
    rw [bind_eq_error] at stops ⊢
    rcases stops with start | ⟨found, middle, start, others⟩
    · exact .inl (atFirst.fault start other more)
    · exact .inr ⟨found, middle ++ more, atFirst.value start more,
        (atSecond found).fault others other more⟩

/-- What is read may be taken into a result. -/
theorem Stable.result {first : Reader α} (atFirst : first.Stable) (result : α → β) :
    (first >>= fun found => Pure.pure (result found)).Stable :=
  atFirst.bind fun _ => stable_pure _

theorem stable_byte : byte.Stable where
  value {bytes value rest} reads more := by
    cases bytes with
    | nil => cases reads
    | cons first others =>
        cases reads
        rfl
  fault {bytes fault} stops early more := by
    cases bytes with
    | nil =>
        cases stops
        exact absurd rfl early
    | cons first others => cases stops

theorem stable_take (count : Nat) : (take count).Stable where
  value {bytes value rest} reads more := by
    unfold take at reads ⊢
    split at reads
    · rename_i enough
      cases reads
      rw [if_pos (by rw [List.length_append]; omega), List.take_append_of_le_length enough,
        List.drop_append_of_le_length enough]
    · cases reads
  fault {bytes fault} stops early more := by
    unfold take at stops
    split at stops
    · cases stops
    · cases stops
      exact absurd rfl early

theorem Stable.many {item : Reader α} (stable : item.Stable) (count : Nat) :
    (many item count).Stable := by
  induction count with
  | zero => exact stable_pure []
  | succ count inductionHypothesis =>
      exact stable.bind fun first => inductionHypothesis.result (first :: ·)

end Rules

end Reader

/-! ## Forms that hold no other forms -/

open Reader

theorem stable_readGroups (count : Nat) : (readGroups count).Stable := by
  induction count with
  | zero => exact stable_fail _
  | succ count inductionHypothesis =>
      refine stable_byte.bind fun byte => ?_
      split
      · exact stable_pure _
      · exact inductionHypothesis.result _

theorem stable_readUnsigned (width : Width) : (readUnsigned width).Stable := by
  have grouped : (readGroups (groups width) >>= fun value =>
      if value < width.limit then Pure.pure value else Reader.fail .unterminated).Stable := by
    refine (stable_readGroups _).bind fun value => ?_
    split
    · exact stable_pure value
    · exact stable_fail _
  cases width with
  | w8 => exact stable_byte.result UInt8.toNat
  | _ => exact grouped

theorem stable_readSigned (width : Width) : (readSigned width).Stable := by
  cases width with
  | w8 => exact stable_byte.result _
  | _ => exact (stable_readUnsigned _).result unfold

theorem stable_readLength : readLength.Stable :=
  stable_readUnsigned .w64

theorem stable_readMark : readMark.Stable := by
  refine stable_byte.bind fun byte => ?_
  split
  · exact stable_pure false
  · split
    · exact stable_pure true
    · exact stable_fail _

theorem stable_readBool : readBool.Stable := by
  refine stable_byte.bind fun byte => ?_
  split
  · exact stable_pure false
  · split
    · exact stable_pure true
    · exact stable_fail _

theorem stable_readBytes : readBytes.Stable :=
  stable_readLength.bind stable_take

theorem stable_readText : readText.Stable := by
  refine stable_readBytes.bind fun bytes => ?_
  split
  · exact stable_pure _
  · exact stable_fail _

theorem stable_readChar : readChar.Stable := by
  refine stable_readLength.bind fun length => ?_
  split
  · exact stable_fail _
  · refine (stable_take length).bind fun bytes => ?_
    split
    · exact stable_pure _
    · exact stable_fail _

end Wire

/-! ## Records -/

open Reader

mutual

/-- The reader of every shape is stable. -/
theorem Shape.stable : ∀ shape : Shape, shape.read.Stable
  | .unit => stable_pure _
  | .bool => stable_readBool.result Datum.bool
  | .unsigned width => (stable_readUnsigned width).result (Datum.unsigned width)
  | .signed width => (stable_readSigned width).result (Datum.signed width)
  | .float32 => (stable_take 4).result _
  | .float64 => (stable_take 8).result _
  | .char => stable_readChar.result Datum.char
  | .text => stable_readText.result Datum.text
  | .bytes => stable_readBytes.result Datum.bytes
  | .option content => stable_readMark.bind fun follows => by
      cases follows with
      | true => exact (Shape.stable content).result Datum.present
      | false => exact stable_pure Datum.absent
  | .list item => stable_readLength.bind fun count =>
      ((Shape.stable item).many count).result Datum.list
  | .tuple shapes => (Shape.stable_items shapes).result Datum.tuple
  | .map key value => stable_readLength.bind fun count =>
      (((Shape.stable key).bind fun _ => (Shape.stable value).result _).many count).result _
  | .record shapes => (Shape.stable_fields shapes).result Datum.record
  | .choice cases => (stable_readUnsigned .w32).bind fun index =>
      Shape.stable_case index index cases

theorem Shape.stable_items : ∀ shapes : List Shape, (Shape.readItems shapes).Stable
  | [] => stable_pure []
  | shape :: shapes => (Shape.stable shape).bind fun first =>
      (Shape.stable_items shapes).result (first :: ·)

theorem Shape.stable_fields :
    ∀ shapes : List (String × Shape), (Shape.readFields shapes).Stable
  | [] => stable_pure []
  | (name, shape) :: shapes => (Shape.stable shape).bind fun first =>
      (Shape.stable_fields shapes).result ((name, first) :: ·)

theorem Shape.stable_case : ∀ (index further : Nat) (cases : List (String × Content)),
    (Shape.readCase index further cases).Stable
  | _, further, [] => by cases further <;> exact stable_fail _
  | index, 0, (name, content) :: _ => Content.stable content index name
  | index, further + 1, _ :: cases => Shape.stable_case index further cases

theorem Content.stable : ∀ (content : Content) (index : Nat) (name : String),
    (content.read index name).Stable
  | .none, _, _ => stable_pure _
  | .wrap shape, index, name => (Shape.stable shape).result (Datum.wrapCase index name)
  | .tuple shapes, index, name => (Shape.stable_items shapes).result (Datum.tupleCase index name)
  | .record shapes, index, name =>
      (Shape.stable_fields shapes).result (Datum.recordCase index name)

end

theorem Hit.stable_readTimestamp : Hit.readTimestamp.Stable := by
  refine stable_readText.bind fun text => ?_
  split
  · exact stable_pure _
  · exact stable_fail _

theorem Hit.stable {ι : Type} {readId : Reader ι} (stable : readId.Stable) :
    (Hit.read readId).Stable :=
  stable_readText.bind fun _ => stable_readLength.bind fun count =>
    (stable.many count).bind fun _ => Hit.stable_readTimestamp.result _

theorem Envelope.stable {α : Type} {payload : Reader α} (stable : payload.Stable) :
    (Envelope.read payload).Stable :=
  (stable_take 4).bind fun _ => (stable_readUnsigned .w32).bind fun _ => stable.result _

theorem Simulation.IdKind.stable {ι : Type} (kind : IdKind ι) : kind.read.Stable := by
  refine kind.shape.stable.bind fun datum => ?_
  split
  · exact stable_pure _
  · exact stable_fail _

theorem Simulation.Entry.stable {ι : Type} (kind : IdKind ι) : (Entry.readPlain kind).Stable :=
  kind.stable.bind fun _ => stable_readText.result _

/-- Stored bytes are read as the value whatever follows them, and where they are cut it is reported
that they end too early. -/
structure Envelope.Delimits {α : Type} (decode : Bytes → Except Error α) (bytes : Bytes)
    (value : α) : Prop where
  padded : ∀ more, decode (bytes ++ more) = .ok value
  cut : ∀ cut, cut <+: bytes → cut ≠ bytes →
    decode cut = .error (.deserialization ReadFault.endOfInput.message)

/-- What can be written and read back is delimited by its envelope. -/
theorem Envelope.delimits_of_roundTrips {α : Type} {written : Except WriteFault Bytes}
    {payload : Reader α} {value : α} (trips : RoundTrips written payload value)
    (stable : payload.Stable) :
    ∃ bytes, Envelope.encode written = .ok bytes ∧
      Delimits (Envelope.decode payload) bytes value := by
  obtain ⟨content, rfl, reads⟩ := trips
  have labelled := Envelope.reads_wrap reads
  refine ⟨_, rfl, fun more => ?_, fun cut isPrefix proper => ?_⟩
  · rw [Envelope.decode, labelled more]
    rfl
  · rw [Envelope.decode, labelled.cut (Envelope.stable stable) isPrefix proper]

namespace Simulation

/-- Stored records are self-delimiting: data of every shape; hits with every text of a query, every
list of identifiers and every moment; and entities. Whatever follows what is stored, the record is
read back, and no proper beginning of it is read as anything: the bytes end too early. What is read
back of a hit with a leap second away from the end of a minute is the hit with the second behind
it, of any other hit the hit itself. -/
theorem records_are_delimited :
    (∀ (shape : Shape) (datum : Datum), shape.Holds datum →
      ∃ bytes, Envelope.encode datum.write = .ok bytes ∧
        Envelope.Delimits (Envelope.decode shape.read) bytes datum) ∧
    (∀ {ι : Type} (kind : IdKind ι) (hit : Hit ι),
      hit.queryId.utf8ByteSize < Width.w64.limit → hit.entityIds.length < Width.w64.limit →
      (∀ id ∈ hit.entityIds, kind.Represents id) → hit.timestamp.IsValid →
      ∃ bytes, kind.schema.encodeHit hit = .ok bytes ∧
        Envelope.Delimits kind.schema.decodeHit bytes hit.told ∧
        (¬ hit.timestamp.IsStray → hit.told = hit)) ∧
    ∀ {ι : Type} (kind : IdKind ι) (entry : Entry ι),
      entry.text.utf8ByteSize < Width.w64.limit → kind.Represents entry.id →
      ∃ bytes, entry.encodePlain kind = .ok bytes ∧
        Envelope.Delimits (Entry.decodePlain kind) bytes entry := by
  refine ⟨fun shape datum holds => ?_, fun kind hit text count represents valid => ?_,
    fun kind entry fits represents => ?_⟩
  · exact Envelope.delimits_of_roundTrips (Shape.roundTrips shape datum holds) shape.stable
  · have trips := Hit.roundTrips text count (fun id present => (represents id present).roundTrips)
      valid
    obtain ⟨bytes, encoded, delimits⟩ :=
      Envelope.delimits_of_roundTrips trips (Hit.stable kind.stable)
    exact ⟨bytes, encoded, delimits, Hit.told_eq_self⟩
  · exact Envelope.delimits_of_roundTrips (Entry.roundTrips represents fits) (Entry.stable kind)

/-- A hit with a leap second away from the end of a minute is read back as another one, whatever
bytes follow it. -/
theorem strayLeapSecond_not_delimited :
    strayHit.timestamp.IsValid ∧
      ∃ bytes, IdKind.natural.schema.encodeHit strayHit = .ok bytes ∧
        ∀ more, IdKind.natural.schema.decodeHit (bytes ++ more) =
            .ok ⟨"all", [7], ⟨1704164646, 500000000⟩⟩ ∧
          IdKind.natural.schema.decodeHit (bytes ++ more) ≠ .ok strayHit := by
  obtain ⟨bytes, encoded, delimits⟩ :=
    Envelope.delimits_of_roundTrips strayHit_roundTrips (Hit.stable IdKind.natural.stable)
  refine ⟨isValid_strayLeapSecond, bytes, encoded, fun more => ⟨delimits.padded more, ?_⟩⟩
  intro same
  have kept := Except.ok.inj ((delimits.padded more).symm.trans same)
  revert kept
  decide

/-- The hit of two numbers and an ancient moment, without its last byte, which stands in the text of
the moment, and with two bytes behind it. -/
theorem records_are_delimited_ancientHit :
    ∃ bytes, IdKind.natural.schema.encodeHit ⟨"all", [7, 0], ancientLeapSecond⟩ = .ok bytes ∧
      IdKind.natural.schema.decodeHit bytes.dropLast =
        .error (.deserialization ReadFault.endOfInput.message) ∧
      IdKind.natural.schema.decodeHit (bytes ++ [0x00, 0xFF]) =
        .ok ⟨"all", [7, 0], ancientLeapSecond⟩ := by
  obtain ⟨-, hits, -⟩ := records_are_delimited
  obtain ⟨bytes, encoded, delimits, told⟩ := hits IdKind.natural
    ⟨"all", [7, 0], ancientLeapSecond⟩ (by decide +kernel) (by decide)
    (fun id _ => IdKind.represents_natural id) isValid_ancientLeapSecond
  rw [told (by decide)] at delimits
  refine ⟨bytes, encoded, delimits.cut _ (List.dropLast_prefix bytes) fun same => ?_,
    delimits.padded _⟩
  have shorter := congrArg List.length same
  have empty : bytes = [] := by
    rw [List.length_dropLast] at shorter
    exact List.eq_nil_of_length_eq_zero (by omega)
  have padded := delimits.padded []
  rw [empty] at padded
  cases padded

end Simulation

end QueryCache
