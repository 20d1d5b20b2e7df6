import QueryCache.Proofs.Listings

/-!
# Running inside a transaction

Whatever is asked of a cache inside a transaction is answered as it would be outside, and leaves the
source as it would be left. When the transaction is committed, the same is committed in the stores
as if it had been asked for outside; when it is rolled back, what was committed stays as it was.

The stores list hits in orders of their own, another one at each scan. Whatever orders are met
outside can be met inside, and then all this holds without a condition: what may be answered inside
is what may be answered outside. Where all can be read that is seen before a call, the orders make
no difference at all. But where two records are damaged each in its own way, they decide with which
error a removal fails, inside and outside alike (`removal_error_depends_on_listing`).
-/

namespace QueryCache

open QueryCache.Action

variable {σ ρ ι ε α : Type}

/-- What a call of a cache tells its caller. -/
inductive Reply (ε : Type)
  | created (outcome : Except Error Unit) (entity : ε)
  | done (outcome : Except Error Unit)
  | found (outcome : Except Error (Option ε))
  | listed (outcome : Except Error (List ε))
  deriving DecidableEq

/-- How a call ended, as its caller is told of it. -/
def replied (form : α → Reply ε) (ended : α × σ) : Reply ε × σ :=
  (form ended.1, ended.2)

namespace CacheCall

variable [DecidableEq ι]

/-- Makes a call of a cache. -/
def run (backend : Backend σ ι ε) (ctx : Context) : CacheCall σ ι ε → σ → Reply ε × σ
  | .create entity, s =>
      replied (fun created => .created created.1 created.2) (backend.create ctx entity s)
  | .update entity, s => replied .done (backend.update ctx entity s)
  | .deleteById id, s => replied .done (backend.deleteById ctx id s)
  | .deleteAll, s => replied .done (backend.deleteAll ctx s)
  | .findById id, s => replied .found (backend.findById ctx id s)
  | .findAll, s => replied .listed (backend.findAll ctx s)
  | .queryMany key query, s => replied .listed (backend.queryMany ctx key query s)
  | .queryOne key query, s => replied .found (backend.queryOne ctx key query s)
  | .remove removal, s => replied .done (backend.remove ctx removal s)

/-- Makes calls one after the other in the same context. The closure of a query may use it. -/
def runAll (backend : Backend σ ι ε) (ctx : Context) :
    List (Context → CacheCall σ ι ε) → σ → List (Reply ε) × σ
  | [], s => ([], s)
  | call :: script, s =>
      let (reply, s) := (call ctx).run backend ctx s
      let (replies, s) := runAll backend ctx script s
      (reply :: replies, s)

omit [DecidableEq ι] in
/-- The same is asked, and the closures of queries take no notice of the repository. -/
def Aside (layout : Layout σ ρ) : CacheCall σ ι ε → CacheCall σ ι ε → Prop
  | .queryMany key query, other =>
      ∃ query', other = .queryMany key query' ∧ QueryCache.Aside layout layout query query'
  | .queryOne key query, other =>
      ∃ query', other = .queryOne key query' ∧ QueryCache.Aside layout layout query query'
  | call, other => other = call

/-- When calls are made one after the other, something holds before each of them. -/
def BeforeEach (backend : Backend σ ι ε) (ctx : Context) (holds : σ → Prop) :
    List (Context → CacheCall σ ι ε) → σ → Prop
  | [], _ => True
  | call :: script, s =>
      holds s ∧ BeforeEach backend ctx holds script ((call ctx).run backend ctx s).2

end CacheCall

theorem TellAlike.replied {τ : Type} {early late : σ → τ → Prop} {left : σ → α × σ}
    {right : τ → α × τ} (alike : TellAlike early late left right) (form : α → Reply ε) :
    TellAlike early late (fun s => replied form (left s)) fun t => replied form (right t) := by
  intro s t relation
  obtain ⟨same, relation⟩ := alike s t relation
  exact ⟨congrArg form same, relation⟩

theorem optionRel_self {relation : α → α → Prop} {offer : Option α}
    (each : ∀ able ∈ offer, relation able able) : Option.Rel relation offer offer := by
  cases offer with
  | none => exact .none
  | some able => exact .some (each able rfl)

namespace Backend.Kindred

variable [DecidableEq ι] {backend : Backend σ ι ε} {layout : Layout σ ρ} {k : Tandem}
  {early late : σ → σ → Prop} (kindred : backend.Kindred early late k.here k.there backend)
  (source : backend.source.Aside layout)
  (keepsEarly : ∀ {α : Type} {step step' : σ → α × σ}, Aside layout layout step step' →
    TellAlike early early step step')
  (keepsLate : ∀ {α : Type} {step step' : σ → α × σ}, Aside layout layout step step' →
    TellAlike late late step step')
include kindred source keepsEarly keepsLate

/-- A call of a cache ends alike at both places. -/
theorem run_alike {call call' : CacheCall σ ι ε} (aside : call.Aside layout call') :
    TellAlike early late (call.run backend k.here) (call'.run backend k.there) := by
  cases call with
  | create entity =>
      cases aside
      refine TellAlike.replied (kindred.create (optionRel_self fun create offered => ?_)) _
      exact keepsLate (source.create create offered k.peers entity)
  | update entity =>
      cases aside
      refine TellAlike.replied (kindred.update (optionRel_self fun update offered => ?_)) _
      exact keepsEarly (source.update update offered k.peers entity)
  | deleteById id =>
      cases aside
      refine TellAlike.replied (kindred.deleteById (optionRel_self fun delete offered => ?_)) _
      exact keepsEarly (source.deleteById delete offered k.peers id)
  | deleteAll =>
      cases aside
      refine TellAlike.replied (kindred.deleteAll (optionRel_self fun delete offered => ?_)) _
      exact keepsEarly (source.deleteAll delete offered k.peers)
  | findById id =>
      cases aside
      exact TellAlike.replied (kindred.findById (keepsLate (source.findById k.peers id))) _
  | findAll =>
      cases aside
      refine TellAlike.replied (kindred.findAll (optionRel_self fun findAll offered => ?_)) _
      exact keepsLate (source.findAll findAll offered k.peers)
  | queryMany key query =>
      obtain ⟨query', rfl, aside⟩ := aside
      exact TellAlike.replied (kindred.queryMany (keepsLate aside) key) _
  | queryOne key query =>
      obtain ⟨query', rfl, aside⟩ := aside
      exact TellAlike.replied (kindred.queryOne (keepsLate aside) key) _
  | remove removal =>
      cases aside
      cases removal with
      | entity id => exact TellAlike.replied (kindred.invalidateEntity id) _
      | query queryId => exact TellAlike.replied (kindred.invalidateQuery queryId) _
      | all => exact TellAlike.replied kindred.dropAll _

/-- So does a script, if before each call the states are related closely enough for it. -/
theorem runAll_alike {holds : σ → Prop} (sharpens : ∀ s t, late s t → holds t → early s t)
    {script : List (Context → CacheCall σ ι ε)}
    (aside : ∀ call ∈ script, ∀ {ctx ctx' : Context}, ctx.Peers ctx' →
      (call ctx).Aside layout (call ctx')) {s t : σ} (relation : late s t)
    (before : CacheCall.BeforeEach backend k.there holds script t) :
    let left := CacheCall.runAll backend k.here script s
    let right := CacheCall.runAll backend k.there script t
    left.1 = right.1 ∧ late left.2 right.2 := by
  induction script generalizing s t with
  | nil => exact ⟨rfl, relation⟩
  | cons call script inductionHypothesis =>
      obtain ⟨holdsFirst, beforeOthers⟩ := before
      obtain ⟨sameReply, relationNext⟩ := kindred.run_alike source keepsEarly keepsLate
        (aside call List.mem_cons_self k.peers) s t (sharpens s t relation holdsFirst)
      obtain ⟨sameReplies, relationLast⟩ := inductionHypothesis
        (fun other member => aside other (List.mem_cons_of_mem _ member)) relationNext beforeOthers
      exact ⟨congrArg₂ List.cons sameReply sameReplies, relationLast⟩

end Backend.Kindred

/-- Before each call, all that is seen can be read. -/
abbrev CacheCall.ReadableBeforeEach [DecidableEq ι] (backend : Backend σ ι ε) (layout : Layout σ ρ)
    (ctx : Context) : List (Context → CacheCall σ ι ε) → σ → Prop :=
  BeforeEach backend ctx fun u =>
    ∀ view, (layout.part u).seen ctx.tx = .ok view → Readable backend.schema view

/-- At places that are abreast a script ends alike, if the scans list hits in the same orders. -/
theorem Backend.Smooth.runAll_abreast [DecidableEq ι] {backend : Backend σ ι ε}
    {layout : Layout σ ρ} {signals : ρ → Signals} (smooth : backend.Smooth layout signals)
    {k : Tandem} {script : List (Context → CacheCall σ ι ε)}
    (aside : ∀ call ∈ script, ∀ {ctx ctx' : Context}, ctx.Peers ctx' →
      (call ctx).Aside layout (call ctx')) {s t : σ}
    (abreast : k.Abreast Eq backend.schema layout layout s t) :
    let left := CacheCall.runAll backend k.here script s
    let right := CacheCall.runAll backend k.there script t
    left.1 = right.1 ∧ k.Level backend.schema layout layout left.2 right.2 := by
  have before (script : List (Context → CacheCall σ ι ε)) (u : σ) :
      CacheCall.BeforeEach backend k.there (fun _ => True) script u := by
    induction script generalizing u with
    | nil => trivial
    | cons call script inductionHypothesis => exact ⟨trivial, inductionHypothesis _⟩
  obtain ⟨told, last⟩ := (smooth.kindred k).runAll_alike smooth.source
    (fun aside => aside.abreast backend.schema) (fun aside => aside.abreast backend.schema)
    (fun _ _ relation _ => relation) aside abreast (before script t)
  exact ⟨told, last.toLevel⟩

/-- At places that are level a script ends alike, in whatever orders the scans list hits, if all can
be read that is seen before each call. -/
theorem Backend.Smooth.runAll_clear [DecidableEq ι] {backend : Backend σ ι ε}
    {layout : Layout σ ρ} {signals : ρ → Signals} (smooth : backend.Smooth layout signals)
    {k : Tandem} (hitsHealthy : k.hereBase.hits.failure = none)
    (entitiesHealthy : k.hereBase.entities.failure = none)
    {script : List (Context → CacheCall σ ι ε)}
    (aside : ∀ call ∈ script, ∀ {ctx ctx' : Context}, ctx.Peers ctx' →
      (call ctx).Aside layout (call ctx')) {s t : σ}
    (level : k.Level backend.schema layout layout s t)
    (readable : CacheCall.ReadableBeforeEach backend layout k.there script t) :
    let left := CacheCall.runAll backend k.here script s
    let right := CacheCall.runAll backend k.there script t
    left.1 = right.1 ∧ k.Level backend.schema layout layout left.2 right.2 := by
  have keepsEarly {α : Type} {step step' : σ → α × σ} (aside : Aside layout layout step step') :
      TellAlike (k.Clear backend.schema layout layout) (k.Clear backend.schema layout layout) step
        step' := by
    intro u v clear
    obtain ⟨told, abreast⟩ := aside.abreast backend.schema u v clear.toAbreast
    obtain ⟨-, -, -, kept⟩ := aside u v clear.rest
    exact ⟨told, abreast, kept.part ▸ clear.readable⟩
  obtain ⟨told, last⟩ := (smooth.kindred_of_clear hitsHealthy entitiesHealthy).runAll_alike
    smooth.source keepsEarly (fun aside => aside.abreast backend.schema)
    (fun _ _ abreast isReadable => ⟨abreast, isReadable⟩) aside ⟨level, trivial⟩ readable
  exact ⟨told, last.toLevel⟩

/-- Rows are gone through in the reverse of the order in which they are given. -/
def Listing.descending : Listing := ⟨List.reverse, List.reverse_perm⟩

namespace Simulation

/-- A cache of switches whose scans list hits in given orders. -/
def listedSwitches : Setting Orders Bool (Entry Bool) := .bare IdKind.switch.schema

/-- A world with one switch, which is copied and listed by two hits. -/
def listedSwitch (orders : Orders) : World Orders (Entry Bool) :=
  { World.initial orders [⟨true, "on"⟩] 0 with
    repository := Repository.after IdKind.switch.schema
      [.request .initial .root (.upsertEntities [⟨true, "on"⟩]),
        .request .initial .root (.createHit ⟨"lit", [true], ⟨0, 0⟩⟩),
        .request .initial .root (.createHit ⟨"on", [true], ⟨0, 0⟩⟩)] .empty }

/-- The switch is found, another one is created, and the first one is deleted, looked for and
deleted again. -/
def switchCalls : List (Context → CacheCall (World Orders (Entry Bool)) Bool (Entry Bool)) :=
  [fun ctx => .queryOne "on" (listedSwitches.source.findById ctx true),
    fun _ => .create ⟨false, "off"⟩, fun _ => .deleteById true, fun _ => .findById true,
    fun _ => .deleteById true]

theorem aside_switchCalls : ∀ call ∈ switchCalls, ∀ {ctx ctx' : Context}, ctx.Peers ctx' →
    (call ctx).Aside World.layout (call ctx') := by
  intro call member ctx ctx' peers
  simp only [switchCalls, List.mem_cons, List.not_mem_nil, or_false] at member
  rcases member with rfl | rfl | rfl | rfl | rfl
  · exact ⟨_, rfl, (Setting.source_aside _).findById peers true⟩
  all_goals rfl

end Simulation

namespace Simulation

/-- A world with copies of three entries, two of which are damaged each in its own way, and with a
hit for either of these that lists it beside the third one. -/
def damagedWorld (listing : Listing) : World Orders (Entry UInt64) :=
  { World.initial (fun _ => listing) [] 0 with
    repository := Repository.after IdKind.natural.schema
      [.request .initial .root (.upsertEntities [⟨7, "x"⟩, ⟨8, "!ver"⟩, ⟨9, "!magic"⟩]),
        .request .initial .root (.createHit ⟨"p", [7, 8], ⟨0, 0⟩⟩),
        .request .initial .root (.createHit ⟨"q", [7, 9], ⟨0, 0⟩⟩)] .empty }

/-- With which error a removal fails may depend on the order in which hits are listed, outside of
transactions as well as inside; in the one order and in the other, it fails inside as it fails
outside. -/
theorem removal_error_depends_on_listing :
    let backend := (Setting.bare IdKind.natural.schema).scanned
    let removal : List (Context → CacheCall (World Orders (Entry UInt64)) UInt64 (Entry UInt64)) :=
      [fun _ => .remove (.entity 7)]
    let outside (listing : Listing) :=
      (CacheCall.runAll backend .root removal (damagedWorld listing)).1
    let inside (listing : Listing) := (CacheCall.runAll backend
      (Context.root.inside (damagedWorld listing).repository) removal
      (backend.begin .root (damagedWorld listing)).2).1
    outside .ascending = [.done (.error
        (.invalidEntry "Invalid magic: expected [67, 84, 72, 82], got [88, 88, 88, 88]"))] ∧
      outside .descending = [.done (.error (.versionMismatch 1 2))] ∧
      inside .ascending = outside .ascending ∧ inside .descending = outside .descending := by
  intro backend removal outside inside
  refine ⟨?_, ?_, ?_, ?_⟩ <;> decide +kernel

end Simulation

end QueryCache
