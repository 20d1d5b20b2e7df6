import QueryCache.Proofs.Canonicity

/-!
# The text of a query key is the key

A key that was built by adding arguments in turn holds under each name the JSON value of the
argument that was added last. Its text can be written, and two keys have the same text exactly when
their operations are the same and they hold the same values under the same names. The order in
which arguments were added is not in the text, and no operation can be spelled so that its text
contains arguments.
-/

namespace QueryCache

open QueryCache.Action (exists_of_bind_eq_ok)

theorem Datum.canonical_json {datum : Datum} {value : Json} (converted : datum.json = .ok value) :
    value.Canonical := by
  unfold Datum.json at converted
  split at converted
  · rename_i found
    cases converted
    exact Datum.canonical_toJson datum value found
  · cases converted

namespace QueryKey

variable {operation : String} {arguments : List (String × Datum)} {key other : QueryKey}

/-- The query of an operation with arguments added in turn. -/
def build (operation : String) (arguments : List (String × Datum)) : Except Error QueryKey :=
  arguments.foldlM (fun key argument => key.argument argument.1 argument.2)
    (ofOperation operation)

/-- The JSON value of the argument that was added last under a name. -/
def lastAdded (arguments : List (String × Datum)) (name : String) : Option Json :=
  (arguments.reverse.lookup name).bind fun value => value.json.toOption

/-- A key as data: the operation and the arguments side by side. -/
def datum (key : QueryKey) : Datum :=
  .tuple [.text key.operation, .map (Datum.ofMembers key.arguments.toList)]

/-! ## Building a key -/

theorem argument_eq_ok {name : String} {value : Datum}
    (added : key.argument name value = .ok other) :
    ∃ content, value.json = .ok content ∧ other = key.insert name content := by
  obtain ⟨content, converted, same⟩ := exists_of_bind_eq_ok added
  cases same
  exact ⟨content, converted, rfl⟩

theorem getElem?_insert (key : QueryKey) (added name : String) (content : Json) :
    (key.insert added content).arguments[name]? =
      if added = name then some content else key.arguments[name]? := by
  rw [insert, Std.ExtTreeMap.getElem?_insert]
  simp only [Std.LawfulEqOrd.compare_eq_iff_eq]

/-- An argument counts unless another one of its name is added behind it. -/
theorem lastAdded_cons {added name : String} {value : Datum} {content : Json}
    (converted : value.json = .ok content)
    (writable : ∀ argument ∈ arguments, ∃ content, argument.2.json = .ok content) :
    lastAdded ((added, value) :: arguments) name =
      (lastAdded arguments name).or (if added = name then some content else none) := by
  rw [lastAdded, lastAdded, List.reverse_cons, List.lookup_append]
  cases found : arguments.reverse.lookup name with
  | none =>
      by_cases same : added = name
      · simp [same, converted, Except.toOption]
      · simp [List.lookup_cons, same, beq_false_of_ne (Ne.symm same)]
  | some value' =>
      obtain ⟨content', converted'⟩ :=
        writable _ (List.mem_reverse.mp (Json.mem_of_lookup_eq_some found))
      dsimp only at converted'
      simp [converted', Except.toOption]

/-- What adding arguments in turn to a key leads to. -/
theorem foldlM_argument_eq_ok (added : arguments.foldlM
      (fun key argument => key.argument argument.1 argument.2) key = .ok other) :
    other.operation = key.operation ∧
      (∀ argument ∈ arguments, ∃ content, argument.2.json = .ok content) ∧
      ∀ name, other.arguments[name]? = (lastAdded arguments name).or key.arguments[name]? := by
  induction arguments generalizing key with
  | nil =>
      cases added
      exact ⟨rfl, by simp, fun name => rfl⟩
  | cons argument arguments inductionHypothesis =>
      rw [List.foldlM_cons] at added
      obtain ⟨middle, first, others⟩ := exists_of_bind_eq_ok added
      obtain ⟨content, converted, rfl⟩ := argument_eq_ok first
      obtain ⟨operation, writable, held⟩ := inductionHypothesis others
      refine ⟨operation, List.forall_mem_cons.mpr ⟨⟨content, converted⟩, writable⟩, fun name => ?_⟩
      -- what the key held before counts only under names that nothing was added to
      rw [held, lastAdded_cons converted writable, Option.or_assoc, getElem?_insert]
      split <;> rfl

/-- A key that was built holds the arguments that were added last. -/
theorem getElem?_of_build (built : build operation arguments = .ok key) (name : String) :
    key.arguments[name]? = lastAdded arguments name := by
  rw [(foldlM_argument_eq_ok built).2.2 name, ofOperation, Std.ExtTreeMap.getElem?_empty,
    Option.or_none]

theorem operation_of_build (built : build operation arguments = .ok key) :
    key.operation = operation :=
  (foldlM_argument_eq_ok built).1

theorem canonical_lastAdded {name : String} {value : Json}
    (found : lastAdded arguments name = some value) : value.Canonical := by
  obtain ⟨datum, -, converted⟩ := Option.bind_eq_some_iff.mp found
  cases written : datum.json with
  | error e =>
      rw [written] at converted
      cases converted
  | ok content =>
      rw [written] at converted
      cases converted
      exact Datum.canonical_json written

/-! ## Writing a key -/

/-- The arguments of the key have texts of their own. -/
def Canonical (key : QueryKey) : Prop :=
  ∀ (name : String) (value : Json), key.arguments[name]? = some value → value.Canonical

theorem canonical_of_build (built : build operation arguments = .ok key) : key.Canonical := by
  intro name value held
  rw [getElem?_of_build built] at held
  exact canonical_lastAdded held

/-- The arguments are listed in order of their names. -/
theorem ascending_toList (key : QueryKey) : Json.Ascending key.arguments.toList := by
  refine List.Pairwise.imp ?_ (Std.ExtTreeMap.ordered_keys_toList (t := key.arguments))
  intro _ _ smaller
  exact compareOfLessAndEq_eq_lt.mp smaller

theorem canonical_of_mem_toList (canonical : key.Canonical) :
    ∀ member ∈ key.arguments.toList, member.2.Canonical := fun member present =>
  canonical member.1 member.2 (Std.ExtTreeMap.mem_toList_iff_getElem?_eq_some.mp present)

theorem canonical_toJson (canonical : key.Canonical) : key.toJson.Canonical := by
  refine .array (List.forall_mem_cons.mpr ⟨.string _, List.forall_mem_singleton.mpr ?_⟩)
  exact .object key.ascending_toList (canonical_of_mem_toList canonical)

/-- The text of a key is what the writer of JSON makes of the operation and the arguments. -/
theorem json_datum (canonical : key.Canonical) : key.datum.json = .ok key.toJson := by
  have members := Datum.entriesJson_ofMembers _ (canonical_of_mem_toList canonical)
  have converted : key.datum.toJson = .ok key.toJson := by
    simp only [datum, Datum.toJson, Datum.itemsJson, members, Json.ofMembers_of_ascending
      key.ascending_toList, toJson, bind, Except.bind, pure, Except.pure]
  rw [Datum.json, converted]

/-- Keys of one text are equal. -/
theorem encode_inj (canonical : key.Canonical) (canonical' : other.Canonical)
    (same : key.encode = other.encode) : key = other := by
  have values := Json.render_inj (canonical_toJson canonical) (canonical_toJson canonical') same
  obtain ⟨operation, arguments⟩ := key
  obtain ⟨operation', arguments'⟩ := other
  simp only [toJson, Json.array.injEq, List.cons.injEq, Json.string.injEq, Json.object.injEq,
    Std.ExtTreeMap.toList_inj, and_true] at values
  rw [values.1, values.2]

/-- The text of a key that was built can be written, and it is the text of another one exactly
when both have the same operation and the same values under the same names. -/
theorem encode_eq_iff_of_build {operation operation' : String}
    {arguments arguments' : List (String × Datum)} {key key' : QueryKey}
    (built : build operation arguments = .ok key)
    (built' : build operation' arguments' = .ok key') :
    key.datum.json.map Json.render = .ok key.encode ∧
      key'.datum.json.map Json.render = .ok key'.encode ∧
      (key.encode = key'.encode ↔ operation = operation' ∧
        ∀ name, Option.Rel Json.Alike (lastAdded arguments name) (lastAdded arguments' name)) := by
  have canonical := canonical_of_build built
  have canonical' := canonical_of_build built'
  refine ⟨by rw [json_datum canonical]; rfl, by rw [json_datum canonical']; rfl, ?_, ?_⟩
  · intro same
    obtain rfl := encode_inj canonical canonical' same
    refine ⟨(operation_of_build built).symm.trans (operation_of_build built'), fun name => ?_⟩
    rw [← getElem?_of_build built, ← getElem?_of_build built']
    exact Json.rel_alike_refl _
  · rintro ⟨rfl, alike⟩
    have arguments_eq : key.arguments = key'.arguments :=
      Std.ExtTreeMap.ext_getElem? fun name => by
        rw [getElem?_of_build built, getElem?_of_build built']
        exact Json.eq_of_rel_alike (fun _ => canonical_lastAdded) (fun _ => canonical_lastAdded)
          (alike name)
    have operation_eq := (operation_of_build built).trans (operation_of_build built').symm
    rw [encode, encode, toJson, toJson, arguments_eq, operation_eq]

/-- The arguments of a search. -/
def searchArguments : List (String × Datum) :=
  [("weight", .float64 0x3ff8000000000000),
    ("filter", .map [(.text "b", .unsigned .w64 1), (.text "a", .list [.signed .w8 (-1)])])]

/-- The same arguments added in another order, after a filter that is replaced. -/
def reorderedArguments : List (String × Datum) :=
  [("filter", .text "\",\"weight"),
    ("filter", .map [(.text "a", .list [.signed .w8 (-1)]), (.text "b", .unsigned .w64 1)]),
    ("weight", .float64 0x3ff8000000000000)]

theorem encode_reorderedArguments :
    ∃ key key', build "Search" searchArguments = .ok key ∧
      build "Search" reorderedArguments = .ok key' ∧
      key.datum.json.map Json.render = .ok key.encode ∧
      key'.datum.json.map Json.render = .ok key'.encode ∧ key.encode = key'.encode := by
  obtain ⟨key, built⟩ : ∃ key, build "Search" searchArguments = .ok key := ⟨_, rfl⟩
  obtain ⟨key', built'⟩ : ∃ key, build "Search" reorderedArguments = .ok key := ⟨_, rfl⟩
  obtain ⟨written, written', same⟩ := encode_eq_iff_of_build built built'
  refine ⟨key, key', built, built', written, written', same.mpr ⟨rfl, fun name => ?_⟩⟩
  by_cases filter : name = "filter"
  · subst filter
    exact .some (Json.Alike.refl _)
  · by_cases weight : name = "weight"
    · subst weight
      exact .some (Json.Alike.refl _)
    · simp [lastAdded, searchArguments, reorderedArguments, List.lookup_cons,
        beq_false_of_ne filter, beq_false_of_ne weight]

end QueryKey

end QueryCache
