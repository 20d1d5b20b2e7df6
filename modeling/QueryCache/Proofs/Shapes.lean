import QueryCache.Proofs.Readback

/-!
# Data of a shape are read back

A datum that a shape holds can be written, and the reader of the shape reads it from its bytes.
The proof follows the shape: each shape writes its parts one after the other and reads them in
the same order. Two shapes need more than that. The entries of a map are sorted again when they
are read, which leaves ascending entries as they are; and a case is found by its place among the
cases of its choice.
-/

namespace QueryCache

open Wire

namespace Datum

/-- An entry whose key is behind all keys comes last. -/
theorem insertEntry_of_behind {key value : Datum} {entries : List (Datum × Datum)}
    (behind : ∀ entry ∈ entries, order key entry.1 = .gt) :
    insertEntry key value entries = entries ++ [(key, value)] := by
  induction entries with
  | nil => rfl
  | cons entry entries inductionHypothesis =>
      rw [List.forall_mem_cons] at behind
      obtain ⟨other, old⟩ := entry
      rw [insertEntry, behind.1, inductionHypothesis behind.2]
      rfl

theorem foldl_insertEntry_of_ascending (sorted : List (Datum × Datum))
    {entries : List (Datum × Datum)} (ascending : Ascending (sorted ++ entries)) :
    entries.foldl (fun sorted entry => insertEntry entry.1 entry.2 sorted) sorted =
      sorted ++ entries := by
  induction entries generalizing sorted with
  | nil => exact (List.append_nil sorted).symm
  | cons entry entries inductionHypothesis =>
      have behind : ∀ other ∈ sorted, order entry.1 other.1 = .gt := fun other present =>
        (List.pairwise_append.mp ascending).2.2 other present entry (List.mem_cons_self ..)
      rw [List.append_cons sorted entry entries] at ascending ⊢
      rw [List.foldl_cons, insertEntry_of_behind behind]
      exact inductionHypothesis _ ascending

/-- Ascending entries are sorted already. -/
theorem sortEntries_of_ascending {entries : List (Datum × Datum)}
    (ascending : Ascending entries) : sortEntries entries = entries :=
  foldl_insertEntry_of_ascending [] ascending

end Datum

section Sequences

variable {item key value : Shape}

/-- Data of one shape side by side are read back in their number. -/
theorem Shape.roundTrips_many {items : List Datum}
    (each : ∀ datum ∈ items, RoundTrips datum.write item.read datum) :
    RoundTrips (Datum.writeItems items) (Reader.many item.read items.length) items := by
  induction items with
  | nil => exact (Reads.pure []).roundTrips
  | cons datum items inductionHypothesis =>
      rw [List.forall_mem_cons] at each
      exact each.1.both ((inductionHypothesis each.2).result (datum :: ·))

theorem Shape.roundTrips_entries {entries : List (Datum × Datum)}
    (each : ∀ entry ∈ entries, RoundTrips entry.1.write key.read entry.1 ∧
      RoundTrips entry.2.write value.read entry.2) :
    RoundTrips (Datum.writeEntries entries)
      (Reader.many (do
        let key ← key.read
        let value ← value.read
        return (key, value)) entries.length) entries := by
  induction entries with
  | nil => exact (Reads.pure []).roundTrips
  | cons entry entries inductionHypothesis =>
      rw [List.forall_mem_cons] at each
      obtain ⟨⟨⟨keyBytes, keyWritten, keyReads⟩, valueBytes, valueWritten, valueReads⟩, others⟩ :=
        each
      obtain ⟨bytes, written, reads⟩ := inductionHypothesis others
      refine ⟨keyBytes ++ valueBytes ++ bytes, ?_, ?_⟩
      · rw [Datum.writeEntries, keyWritten, valueWritten, written]
        rfl
      · exact (keyReads.bind (valueReads.result (entry.1, ·))).bind (reads.result (entry :: ·))

end Sequences

mutual

/-- A datum that a shape holds is written and read back. -/
theorem Shape.roundTrips : ∀ (shape : Shape) (datum : Datum), shape.Holds datum →
    RoundTrips datum.write shape.read datum
  | .unit, datum, holds => by
      cases datum with
      | unit => exact (Reads.pure _).roundTrips
      | _ => exact holds.elim
  | .bool, datum, holds => by
      cases datum with
      | bool value => exact ((reads_bool value).result Datum.bool).roundTrips
      | _ => exact holds.elim
  | .unsigned width, datum, holds => by
      cases datum with
      | unsigned width' value =>
          obtain ⟨rfl, fits⟩ := holds
          exact ((reads_unsigned fits).result (Datum.unsigned width')).roundTrips
      | _ => exact holds.elim
  | .signed width, datum, holds => by
      cases datum with
      | signed width' value =>
          obtain ⟨rfl, low, high⟩ := holds
          exact ((reads_signed low high).result (Datum.signed width')).roundTrips
      | _ => exact holds.elim
  | .float32, datum, holds => by
      cases datum with
      | float32 bits =>
          have room : bits.toNat < Nat.pow 256 4 := bits.toNat_lt
          have reads := reads_littleEndian (fun value => Datum.float32 (.ofNat value)) room
          rw [UInt32.ofNat_toNat] at reads
          exact reads.roundTrips
      | _ => exact holds.elim
  | .float64, datum, holds => by
      cases datum with
      | float64 bits =>
          have room : bits.toNat < Nat.pow 256 8 := bits.toNat_lt
          have reads := reads_littleEndian (fun value => Datum.float64 (.ofNat value)) room
          rw [UInt64.ofNat_toNat] at reads
          exact reads.roundTrips
      | _ => exact holds.elim
  | .char, datum, holds => by
      cases datum with
      | char value => exact ((reads_char value).result Datum.char).roundTrips
      | _ => exact holds.elim
  | .text, datum, holds => by
      cases datum with
      | text value => exact ((reads_text holds).result Datum.text).roundTrips
      | _ => exact holds.elim
  | .bytes, datum, holds => by
      cases datum with
      | bytes value => exact ((reads_bytes holds).result Datum.bytes).roundTrips
      | _ => exact holds.elim
  | .option content, datum, holds => by
      cases datum with
      | absent => exact (Reads.finish (reads_mark false) (Reads.pure Datum.absent)).roundTrips
      | present value =>
          have held := Shape.roundTrips content value holds
          exact RoundTrips.behind (reads_mark true) (held.result Datum.present)
      | _ => exact holds.elim
  | .list item, datum, holds => by
      cases datum with
      | list items =>
          have each := Shape.roundTrips_many fun value present =>
            Shape.roundTrips item value (holds.2 value present)
          exact RoundTrips.behind (reads_length holds.1) (each.result Datum.list)
      | _ => exact holds.elim
  | .tuple shapes, datum, holds => by
      cases datum with
      | tuple items => exact (Shape.roundTrips_items shapes items holds).result Datum.tuple
      | _ => exact holds.elim
  | .map key value, datum, holds => by
      cases datum with
      | map entries =>
          obtain ⟨fits, ascending, each⟩ := holds
          have entriesTrip := Shape.roundTrips_entries fun entry present =>
            ⟨Shape.roundTrips key entry.1 (each entry present).1,
              Shape.roundTrips value entry.2 (each entry present).2⟩
          refine RoundTrips.behind (reads_length fits) (entriesTrip.finish ?_)
          rw [Datum.sortEntries_of_ascending ascending]
          exact Reads.pure _
      | _ => exact holds.elim
  | .record shapes, datum, holds => by
      cases datum with
      | record fields =>
          exact (Shape.roundTrips_fields shapes fields holds).result Datum.record
      | _ => exact holds.elim
  | .choice cases, datum, holds => by
      obtain ⟨further, written, fits, whole, content⟩ :=
        Shape.roundTrips_case 0 cases datum holds
      rw [Nat.zero_add] at fits whole content
      rw [whole]
      exact RoundTrips.behind (reads_unsigned fits) content

/-- Data side by side are written and read back. -/
theorem Shape.roundTrips_items : ∀ (shapes : List Shape) (items : List Datum),
    Shape.HoldItems shapes items →
    RoundTrips (Datum.writeItems items) (Shape.readItems shapes) items
  | [], [], _ => (Reads.pure []).roundTrips
  | shape :: shapes, item :: items, ⟨holds, others⟩ =>
      (Shape.roundTrips shape item holds).both
        ((Shape.roundTrips_items shapes items others).result (item :: ·))

/-- The fields of a record are written and read back. -/
theorem Shape.roundTrips_fields : ∀ (shapes : List (String × Shape))
    (fields : List (String × Datum)), Shape.HoldFields shapes fields →
    RoundTrips (Datum.writeFields fields) (Shape.readFields shapes) fields
  | [], [], _ => (Reads.pure []).roundTrips
  | (name, shape) :: shapes, (_, value) :: fields, ⟨rfl, holds, others⟩ =>
      (Shape.roundTrips shape value holds).both
        ((Shape.roundTrips_fields shapes fields others).result ((name, value) :: ·))

/-- A case is written as its place and then its content, which is read back by who knows how much
further on the case stands. -/
theorem Shape.roundTrips_case : ∀ (start : Nat) (cases : List (String × Content)) (datum : Datum),
    Shape.HoldCase start cases datum →
    ∃ further written, start + further < Width.w32.limit ∧
      datum.write = (do return writeUnsigned .w32 (start + further) ++ (← written)) ∧
      RoundTrips written (Shape.readCase (start + further) further cases) datum
  | start, (name, content) :: cases, datum, .inl ⟨fits, holds⟩ => by
      obtain ⟨written, whole, reads⟩ := Content.roundTrips content start name datum holds
      exact ⟨0, written, fits, whole, reads⟩
  | start, _ :: cases, datum, .inr holds => by
      obtain ⟨further, written, fits, whole, reads⟩ :=
        Shape.roundTrips_case (start + 1) cases datum holds
      have place : start + 1 + further = start + (further + 1) := by omega
      rw [place] at fits whole reads
      exact ⟨further + 1, written, fits, whole, reads⟩

/-- The content of a case is written behind the place of the case and read back. -/
theorem Content.roundTrips : ∀ (content : Content) (index : Nat) (name : String) (datum : Datum),
    content.Holds index name datum →
    ∃ written, datum.write = (do return writeUnsigned .w32 index ++ (← written)) ∧
      RoundTrips written (content.read index name) datum
  | .none, index, name, datum, holds => by
      cases datum with
      | unitCase index' name' =>
          obtain ⟨rfl, rfl⟩ := holds
          refine ⟨.ok [], ?_, (Reads.pure _).roundTrips⟩
          rw [Datum.write]
          exact congrArg Except.ok (List.append_nil _).symm
      | _ => exact holds.elim
  | .wrap shape, index, name, datum, holds => by
      cases datum with
      | wrapCase index' name' value =>
          obtain ⟨rfl, rfl, holds⟩ := holds
          exact ⟨value.write, Datum.write.eq_def _,
            (Shape.roundTrips shape value holds).result (Datum.wrapCase _ _)⟩
      | _ => exact holds.elim
  | .tuple shapes, index, name, datum, holds => by
      cases datum with
      | tupleCase index' name' items =>
          obtain ⟨rfl, rfl, holds⟩ := holds
          exact ⟨Datum.writeItems items, Datum.write.eq_def _,
            (Shape.roundTrips_items shapes items holds).result (Datum.tupleCase _ _)⟩
      | _ => exact holds.elim
  | .record shapes, index, name, datum, holds => by
      cases datum with
      | recordCase index' name' fields =>
          obtain ⟨rfl, rfl, holds⟩ := holds
          exact ⟨Datum.writeFields fields, Datum.write.eq_def _,
            (Shape.roundTrips_fields shapes fields holds).result (Datum.recordCase _ _)⟩
      | _ => exact holds.elim

end

end QueryCache
