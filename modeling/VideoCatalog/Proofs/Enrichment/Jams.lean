import VideoCatalog.Proofs.Enrichment.Aftermath

/-!
# Sessions that cannot be closed

If closing a session raises more than a refusal of the operating system, then the content of its
item is never released, so a pass that ends with statistics has opened no such session.

* `Registry.Drained`: nothing was taken out but handles with some numbers.
* `Extractor.conclude_drained`: an extraction takes out its own session and content alone.
* `Race.Jammed`: the invariant of a race whose session cannot be closed.
* `Pass.Jammed`: the content of such an item stays registered whatever the workers do.
* `Pass.mildFor_of_ok`: the main statement.
-/

namespace VideoCatalog

/-- Nothing was taken out but handles with some numbers, and nothing was registered. -/
structure Registry.Drained (ids : List Nat) (r r' : Registry) : Prop where
  issued : r'.issued = r.issued
  sound : r.Sound → r'.Sound
  kept : ∀ h ∈ r.registered, h.id ∉ ids → h ∈ r'.registered

namespace Registry.Drained

variable {ids : List Nat} {a b c : Registry}

theorem refl (ids : List Nat) (r : Registry) : Drained ids r r :=
  ⟨rfl, fun sound => sound, fun _ mem _ => mem⟩

theorem trans (ab : Drained ids a b) (bc : Drained ids b c) : Drained ids a c :=
  ⟨bc.issued.trans ab.issued, fun sound => bc.sound (ab.sound sound),
    fun h mem out => bc.kept h (ab.kept h mem out) out⟩

theorem release (r : Registry) {id : Nat} (own : id ∈ ids) :
    Drained ids r (r.release id).registry := by
  refine ⟨?_, fun sound => sound.release id, fun h mem out => ?_⟩
  · cases found : r.find? id with
    | none => rw [release_of_find?_none found]
    | some g => rw [(release_of_find? found).1]
  · cases found : r.find? id with
    | none =>
      rw [release_of_find?_none found]
      exact mem
    | some g =>
      rw [(release_of_find? found).1]
      have ne : h.id ≠ id := fun same => out (same ▸ own)
      exact List.mem_filter.2 ⟨mem, by simpa using ne⟩

theorem release? (r : Registry) {id : Option Nat} (own : ∀ i ∈ id, i ∈ ids) :
    Drained ids r (r.release? id).registry := by
  cases id with
  | none => exact .refl ids r
  | some id => exact release r (own id rfl)

end Registry.Drained

namespace Race

variable {encoder : Encoder} {settings : ExtractionSettings}
  {decoding : Decoding} {r r' : Race} {ids : List Nat}

/-! ### An extraction only takes out what is its own -/

/-- What a race holds is among some numbers, and it has taken out nothing else. -/
structure Own (ids : List Nat) (base : Registry) (content : Option Nat) (r : Race) : Prop where
  session : ∀ id ∈ r.session, id ∈ ids
  among : ∀ id ∈ content, id ∈ ids
  content : r.item.content = content ∨ r.item.content = none
  drained : base.Drained ids r.registry

theorem Own.congr {base : Registry} {content : Option Nat} (own : Own ids base content r)
    (session : r'.session = r.session) (held : r'.item.content = r.item.content)
    (registry : r'.registry = r.registry) : Own ids base content r' :=
  ⟨session ▸ own.session, own.among, held ▸ own.content, registry ▸ own.drained⟩

theorem Own.releaseStep {base : Registry} {content : Option Nat} (own : Own ids base content r)
    (next : Release) : Own ids base content (r.releaseStep next).1 := by
  have held : ∀ id ∈ r.item.content, id ∈ ids := by
    intro id mem
    rcases own.content with same | gone
    · exact own.among id (same ▸ mem)
    · rw [gone] at mem
      cases mem
  have drained (id : Option Nat) (among : ∀ i ∈ id, i ∈ ids) :
      base.Drained ids (r.registry.release? id).registry := own.drained.trans (.release? _ among)
  cases next with
  | session =>
    unfold Race.releaseStep
    dsimp only
    split <;> exact ⟨own.session, own.among, own.content, drained _ own.session⟩
  | content =>
    unfold Race.releaseStep
    dsimp only
    split
    · exact ⟨own.session, own.among, .inr rfl, drained _ held⟩
    · exact ⟨own.session, own.among, own.content, drained _ held⟩
  | finish failed => exact ⟨own.session, own.among, own.content, own.drained⟩

theorem Own.run {base : Registry} {content : Option Nat} (own : Own ids base content r)
    (order : List Party) : Own ids base content (r.run encoder settings decoding order) := by
  refine run_induction (P := Own ids base content) (fun p q move own => ?_)
    (fun p q move own => ?_) order own
  · cases move with
    | release => exact (own.releaseStep _).congr rfl rfl rfl
    | note => exact own.congr rfl (content_noted p _) rfl
    | keep => exact own.congr rfl (content_kept p _) rfl
    | pass | lose | win | finish => exact own.congr rfl rfl rfl
  · cases move with
    | release => exact (own.releaseStep _).congr rfl rfl rfl
    | expire | wake | lose | win | finish | fail => exact own.congr rfl rfl rfl

end Race

/-- An extraction takes out its own session and content, and nothing else. -/
theorem Extractor.conclude_drained (x : Extractor) (decoding : Decoding) (start : Race) :
    start.registry.Drained (start.session.toList ++ start.item.content.toList)
        (x.conclude decoding start).registry ∧
      ((x.conclude decoding start).item.content = start.item.content ∨
        (x.conclude decoding start).item.content = none) := by
  have own : Race.Own (start.session.toList ++ start.item.content.toList) start.registry
      start.item.content start := by
    refine ⟨fun id mem => ?_, fun id mem => ?_, .inl rfl, .refl _ _⟩
    · exact List.mem_append_left _ (Option.mem_toList.2 mem)
    · exact List.mem_append_right _ (Option.mem_toList.2 mem)
  have ended : Race.Own (start.session.toList ++ start.item.content.toList) start.registry
      start.item.content (x.ended decoding start) := (own.run _).run _
  exact ⟨ended.drained, ended.content⟩

/-! ### A session that cannot be closed -/

/-- Closing the resource raises more than a refusal of the operating system. -/
def Handle.Bad (h : Handle) : Prop := ∃ f, h.fault = some f ∧ f.isSystem = false

/-- Whether the decode path is in no part of the release that takes something out. -/
def DecodePoint.Spares : DecodePoint → Prop
  | .releasing .session _ | .releasing .content _ => False
  | _ => True

/-- The same for the deadline path. -/
def DeadlinePoint.Spares : DeadlinePoint → Prop
  | .releasing .session _ | .releasing .content _ => False
  | _ => True

theorem DecodePoint.spares_of_leads {metadata : Except Failure Value} {p : DecodePoint}
    (leads : p.Leads metadata) : p.Spares := by
  cases leads <;> trivial

namespace Race

variable {encoder : Encoder} {settings : ExtractionSettings}
  {decoding : Decoding} {r r' : Race} {lease jam : Handle}

/-- How far a race has come whose session cannot be closed. -/
inductive JamStage (jam : Handle) (r : Race) : Prop
  | undecided (first : r.gate.verdict = none) (decode : r.decode.Spares)
      (deadline : r.deadline.Spares) (there : jam ∈ r.registry.registered)
  | byDecode {note : Record} (decided : r.gate.verdict.isSome = true)
      (hat : r.decode = .releasing .session note) (deadline : r.deadline.Spares)
      (there : jam ∈ r.registry.registered)
  | byDeadline {notes : List Record} (decided : r.gate.verdict.isSome = true)
      (decode : r.decode.Spares) (hat : r.deadline = .releasing .session notes)
      (there : jam ∈ r.registry.registered)
  | spent (decided : r.gate.verdict.isSome = true) (decode : r.decode.Spares)
      (deadline : r.deadline.Spares)

/-- A race whose session cannot be closed keeps its content registered. -/
structure Jammed (lease jam : Handle) (r : Race) : Prop where
  bad : jam.Bad
  apart : lease.id ≠ jam.id
  session : r.session = some jam.id
  content : r.item.content = some lease.id
  sound : r.registry.Sound
  held : lease ∈ r.registry.registered
  stage : JamStage jam r

/-- Handles that the race does not hold stay. -/
theorem Jammed.released (jammed : Jammed lease jam r) :
    (r.registry.release jam.id).registry.Sound ∧
      lease ∈ (r.registry.release jam.id).registry.registered := by
  have drained : r.registry.Drained [jam.id] (r.registry.release jam.id).registry :=
    .release _ List.mem_cons_self
  exact ⟨drained.sound jammed.sound,
    drained.kept lease jammed.held (by simpa using jammed.apart)⟩

/-- The release ends with the session, and the content is still registered. -/
theorem Jammed.ends_release (jammed : Jammed lease jam r)
    (there : jam ∈ r.registry.registered) :
    ∃ f registry,
      r.releaseStep .session = ({ r with registry := registry }, some (.finish (some f))) ∧
        registry.Sound ∧ lease ∈ registry.registered := by
  obtain ⟨f, fault, severe⟩ := jammed.bad
  have found : r.registry.find? jam.id = some jam :=
    Registry.find?_eq there fun g mem same => jammed.sound.eq_of_id mem there same
  refine ⟨f, (r.registry.release jam.id).registry, ?_, jammed.released⟩
  simp [releaseStep, jammed.session, Registry.release?, Registry.release, found, Registry.close,
    fault, severe, Except.map]

/-- A move of the decode path that neither decides nor releases. -/
theorem JamStage.aside (stage : JamStage jam r) (before : r.decode.Spares)
    (after : r'.decode.Spares) (gate : r'.gate.verdict = r.gate.verdict)
    (deadline : r'.deadline = r.deadline) (registry : r'.registry = r.registry) :
    JamStage jam r' := by
  cases stage with
  | undecided first _ spares there =>
    exact .undecided (gate.trans first) after (deadline ▸ spares) (registry ▸ there)
  | byDecode _ hat => rw [hat] at before; exact before.elim
  | byDeadline decided _ hat there =>
    exact .byDeadline (gate ▸ decided) after (deadline.trans hat) (registry ▸ there)
  | spent decided _ spares => exact .spent (gate ▸ decided) after (deadline ▸ spares)

/-- The same for the deadline path. -/
theorem JamStage.beside (stage : JamStage jam r) (before : r.deadline.Spares)
    (after : r'.deadline.Spares) (gate : r'.gate.verdict = r.gate.verdict)
    (decode : r'.decode = r.decode) (registry : r'.registry = r.registry) : JamStage jam r' := by
  cases stage with
  | undecided first spares _ there =>
    exact .undecided (gate.trans first) (decode ▸ spares) after (registry ▸ there)
  | byDecode decided hat _ there =>
    exact .byDecode (gate ▸ decided) (decode.trans hat) after (registry ▸ there)
  | byDeadline _ _ hat => rw [hat] at before; exact before.elim
  | spent decided spares _ => exact .spent (gate ▸ decided) (decode ▸ spares) after

theorem Jammed.decodeMove (jammed : Jammed lease jam r) (move : DecodeMove decoding r r') :
    Jammed lease jam r' := by
  have stage := jammed.stage
  cases move with
  | pass hat leads =>
    refine { jammed with stage := stage.aside ?_ (DecodePoint.spares_of_leads leads) rfl rfl rfl }
    generalize r.decode = p at hat ⊢
    cases p <;> trivial
  | note hat =>
    exact ⟨jammed.bad, jammed.apart, jammed.session, (content_noted r _).trans jammed.content,
      jammed.sound, jammed.held, stage.aside (hat ▸ trivial) trivial rfl rfl rfl⟩
  | keep hat =>
    exact ⟨jammed.bad, jammed.apart, jammed.session, (content_kept r _).trans jammed.content,
      jammed.sound, jammed.held, stage.aside (hat ▸ trivial) trivial rfl rfl rfl⟩
  | lose hat | finish hat =>
    exact { jammed with stage := stage.aside (hat ▸ trivial) trivial rfl rfl rfl }
  | win hat first =>
    refine { jammed with stage := ?_ }
    cases stage with
    | undecided _ _ deadline there => exact .byDecode rfl rfl deadline there
    | byDecode decided | byDeadline decided | spent decided => rw [first] at decided; cases decided
  | @release next later note hat more =>
    cases stage with
    | byDecode decided hat' deadline there =>
      rw [hat] at hat'
      obtain rfl := (DecodePoint.releasing.inj hat').1
      obtain ⟨f, registry, ended, sound, held⟩ := jammed.ends_release there
      rw [ended] at more ⊢
      obtain rfl : .finish (some f) = later := Option.some.inj more
      exact ⟨jammed.bad, jammed.apart, jammed.session, jammed.content, sound, held,
        .spent decided trivial deadline⟩
    | undecided _ decode | byDeadline _ decode | spent _ decode =>
      rw [hat] at decode
      cases next with
      | session | content => exact decode.elim
      | finish failed => exact absurd rfl (ne_finish_of_more more failed)

theorem Jammed.deadlineMove (jammed : Jammed lease jam r) (move : DeadlineMove r r') :
    Jammed lease jam r' := by
  have stage := jammed.stage
  cases move with
  | expire hat | lose hat | finish hat | fail hat =>
    exact { jammed with stage := stage.beside (hat ▸ trivial) trivial rfl rfl rfl }
  | wake hat =>
    have spares : r.deadline.Spares := by rcases hat with hat | hat <;> exact hat ▸ trivial
    exact { jammed with stage := stage.beside spares trivial rfl rfl rfl }
  | win hat first =>
    refine { jammed with stage := ?_ }
    cases stage with
    | undecided _ decode _ there => exact .byDeadline rfl decode rfl there
    | byDecode decided | byDeadline decided | spent decided => rw [first] at decided; cases decided
  | @release next later notes hat more =>
    cases stage with
    | byDeadline decided decode hat' there =>
      rw [hat] at hat'
      obtain rfl := (DeadlinePoint.releasing.inj hat').1
      obtain ⟨f, registry, ended, sound, held⟩ := jammed.ends_release there
      rw [ended] at more ⊢
      obtain rfl : .finish (some f) = later := Option.some.inj more
      exact ⟨jammed.bad, jammed.apart, jammed.session, jammed.content, sound, held,
        .spent decided decode trivial⟩
    | undecided _ _ deadline | byDecode _ _ deadline | spent _ _ deadline =>
      rw [hat] at deadline
      cases next with
      | session | content => exact deadline.elim
      | finish failed => exact absurd rfl (ne_finish_of_more more failed)

/-- Its content stays registered under every order of steps. -/
theorem Jammed.run (jammed : Jammed lease jam r) (order : List Party) :
    Jammed lease jam (r.run encoder settings decoding order) :=
  run_induction (fun _ _ move jammed => jammed.decodeMove move)
    (fun _ _ move jammed => jammed.deadlineMove move) order jammed

end Race

/-- An extraction whose session cannot be closed leaves its content registered. -/
theorem Extractor.conclude_jammed {lease jam : Handle} (x : Extractor) (decoding : Decoding)
    {start : Race} (jammed : Race.Jammed lease jam start) :
    lease ∈ (x.conclude decoding start).registry.registered ∧
      (x.conclude decoding start).item.content = some lease.id :=
  have ended : Race.Jammed lease jam (x.ended decoding start) := (jammed.run _).run _
  ⟨ended.held, ended.content⟩

namespace Pass

open Extractor

variable {x : Extractor} {onProgress : Nat → Nat → Option Failure} {base : Registry}
  {items : List Item} {place : Nat} {source : Path} {lease : Handle} {p q : Pass}

/-- What holds of a pass in which the sessions for the item at a place cannot be closed: the
content of that item is registered. -/
structure Jammed (base : Registry) (place : Nat) (source : Path) (lease : Handle) (p : Pass) :
    Prop where
  sound : p.registry.Sound
  issued : base.issued ≤ p.registry.issued
  held : lease ∈ p.registry.registered
  item : ∃ item, p.items[place]? = some item ∧ item.source = source ∧
    item.content = some lease.id
  contents : ∀ k item id, p.items[k]? = some item → item.content = some id →
    id ≤ base.issued ∧ (k ≠ place → id ≠ lease.id)
  sessions : ∀ k s, .opened k s ∈ p.workers → base.issued < s ∧ s ≤ p.registry.issued
  distinct : (p.workers.filterMap Worker.session?).Nodup
  jam : ∀ s, .opened place s ∈ p.workers → ∃ h ∈ p.registry.registered, h.id = s ∧ h.Bad

theorem Jammed.perm (jammed : Jammed base place source lease p) {ws : List Worker}
    (same : p.workers.Perm ws) : Jammed base place source lease { p with workers := ws } :=
  { jammed with
    sessions := fun k s mem => jammed.sessions k s (same.mem_iff.2 mem)
    distinct := (same.filterMap _).nodup_iff.1 jammed.distinct
    jam := fun s mem => jammed.jam s (same.mem_iff.2 mem) }

theorem Jammed.lease_le (jammed : Jammed base place source lease p) : lease.id ≤ base.issued := by
  obtain ⟨item, hat, -, held⟩ := jammed.item
  exact (jammed.contents place item lease.id hat held).1

/-- A turn of a worker that leaves it without a session takes out handles that no other worker
holds, and may empty the item at another place. -/
theorem Jammed.turn (jammed : Jammed base place source lease p) {ids : List Nat} {w w' : Worker}
    {rest : List Worker} (workers : p.workers = w :: rest)
    (drained : p.registry.Drained ids q.registry) (held : lease ∈ q.registry.registered)
    (apart : ∀ k s, .opened k s ∈ rest → s ∉ ids) (length : q.items.length = p.items.length)
    (kept : ∀ k after, q.items[k]? = some after → ∃ item, p.items[k]? = some item ∧
      after.source = item.source ∧
      (after.content = item.content ∨ k ≠ place ∧ after.content = none))
    (shut : ∀ k s, w' ≠ .opened k s) :
    Jammed base place source lease { q with workers := w' :: rest } := by
  have old {k s : Nat} (mem : .opened k s ∈ w' :: rest) : .opened k s ∈ rest :=
    (List.mem_cons.1 mem).resolve_left fun same => shut k s same.symm
  have among : rest ⊆ p.workers := workers ▸ List.subset_cons_self w rest
  obtain ⟨item, hat, from_source, content⟩ := jammed.item
  refine ⟨drained.sound jammed.sound, drained.issued ▸ jammed.issued, held, ?_, ?_, ?_, ?_, ?_⟩
  · have bound : place < q.items.length := length ▸ (List.getElem?_eq_some_iff.1 hat).1
    have there : q.items[place]? = some q.items[place] := List.getElem?_eq_getElem bound
    obtain ⟨before, hat', source', content'⟩ := kept place _ there
    obtain rfl : item = before := Option.some.inj (hat.symm.trans hat')
    refine ⟨q.items[place], there, source'.trans from_source, ?_⟩
    rcases content' with same | ⟨ne, -⟩
    · exact same.trans content
    · exact absurd rfl ne
  · intro k after id there number
    obtain ⟨before, hat', -, content'⟩ := kept k after there
    rcases content' with same | ⟨-, gone⟩
    · exact jammed.contents k before id hat' (same.symm.trans number)
    · rw [gone] at number
      cases number
  · intro k s mem
    rw [show ({ q with workers := w' :: rest } : Pass).registry.issued = p.registry.issued from
      drained.issued]
    exact jammed.sessions k s (among (old mem))
  · have none_here : w'.session? = none := by
      cases w' with
      | opened k s => exact absurd rfl (shut k s)
      | _ => rfl
    have nodup := jammed.distinct
    rw [workers] at nodup
    dsimp only
    rw [List.filterMap_cons_none none_here]
    exact nodup.sublist ((List.sublist_cons_self w rest).filterMap _)
  · intro s mem
    obtain ⟨h, registered, rfl, bad⟩ := jammed.jam s (among (old mem))
    exact ⟨h, drained.kept h registered (apart place h.id (old mem)), rfl, bad⟩

/-- A worker that takes over an extraction has no session. -/
theorem absorb_shut (p : Pass) (k : Nat) (e : Extracted) :
    ∀ j s, (p.absorb k e).2 ≠ .opened j s := by
  unfold absorb
  dsimp only
  split <;> simp

/-- A turn that ends the extraction of an item. -/
theorem Jammed.absorb {w : Worker} {rest : List Worker}
    (jammed : Jammed base place source lease { p with workers := w :: rest }) {k : Nat}
    {item : Item} {e : Extracted} {ids : List Nat} (hat : p.items[k]? = some item)
    (drained : p.registry.Drained ids e.registry) (held : lease ∈ e.registry.registered)
    (apart : ∀ j s, .opened j s ∈ rest → s ∉ ids) (from_source : e.item.source = item.source)
    (content : e.item.content = item.content ∨ k ≠ place ∧ e.item.content = none) :
    Jammed base place source lease
      { (p.absorb k e).1 with workers := (p.absorb k e).2 :: rest } := by
  obtain ⟨registry, items⟩ := registry_absorb p k e
  refine jammed.turn rfl (registry ▸ drained) (registry ▸ held) apart (by simp [items]) ?_
    (absorb_shut p k e)
  intro j after there
  rw [items] at there
  by_cases same : k = j
  · subst same
    rw [List.getElem?_set_self (List.getElem?_eq_some_iff.1 hat).1] at there
    obtain rfl := Option.some.inj there
    exact ⟨item, hat, from_source, content⟩
  · rw [List.getElem?_set_ne same] at there
    exact ⟨after, there, rfl, .inl rfl⟩

theorem Jammed.decoding_open (jammed : Jammed base place source lease p) {item : Item}
    (held : item.content = some lease.id) :
    x.decoding p.registry item = x.backend item.source false := by
  have hopen : p.registry.isClosed lease.id = false := by
    simpa [Registry.isClosed] using jammed.sound.not_closed lease jammed.held
  rw [Extractor.decoding, held, Option.map_some, hopen]
  rfl

/-- A turn that opens a session. -/
theorem Jammed.acquire
    (closing : ∃ f, (x.backend source false).closing = some f ∧ f.isSystem = false) {k : Nat}
    {rest : List Worker}
    (jammed : Jammed base place source lease { p with workers := .claimed k :: rest }) {item : Item}
    (hat : p.items[k]? = some item) :
    Jammed base place source lease
      { p with
        registry := (p.registry.acquire Registry.decodeKind
          (x.decoding p.registry item).closing).2
        workers := .opened k (p.registry.issued + 1) :: rest } := by
  have before : base.issued ≤ p.registry.issued := jammed.issued
  have older {j s : Nat} (mem : .opened j s ∈ rest) : base.issued < s ∧ s ≤ p.registry.issued :=
    jammed.sessions j s (List.mem_cons_of_mem _ mem)
  refine ⟨jammed.sound.acquire _ _, Nat.le_succ_of_le before, List.mem_append_left _ jammed.held,
    jammed.item, jammed.contents, fun j s mem => ?_, ?_, fun s mem => ?_⟩
  · rcases List.mem_cons.1 mem with new | old
    · cases new
      exact ⟨Nat.lt_succ_of_le before, Nat.le_refl _⟩
    · exact ⟨(older old).1, Nat.le_succ_of_le (older old).2⟩
  · refine List.nodup_cons.2 ⟨fun twice => ?_, jammed.distinct⟩
    obtain ⟨v, mem, number⟩ := List.mem_filterMap.1 twice
    cases v with
    | opened j s =>
      obtain rfl : s = p.registry.issued + 1 := Option.some.inj number
      have le := (older mem).2
      omega
    | _ => cases number
  · rcases List.mem_cons.1 mem with new | old
    · cases new
      obtain ⟨other, hat', rfl, held⟩ := jammed.item
      obtain rfl : item = other := Option.some.inj (hat.symm.trans hat')
      obtain ⟨f, fault, severe⟩ := closing
      exact ⟨_, List.mem_append_right _ (List.mem_singleton.2 rfl), rfl, f,
        (congrArg Decoding.closing (jammed.decoding_open held)).trans fault, severe⟩
    · obtain ⟨h, registered, same, bad⟩ := jammed.jam s (List.mem_cons_of_mem _ old)
      exact ⟨h, List.mem_append_left _ registered, same, bad⟩

/-- A turn that touches neither the registry nor the items. -/
theorem Jammed.still {w w' : Worker} {rest : List Worker}
    (jammed : Jammed base place source lease { p with workers := w :: rest })
    (registry : q.registry = p.registry) (items : q.items = p.items)
    (shut : ∀ k s, w' ≠ .opened k s) :
    Jammed base place source lease { q with workers := w' :: rest } := by
  have drained : p.registry.Drained [] q.registry := registry ▸ .refl _ _
  exact jammed.turn rfl drained (registry ▸ jammed.held) (by simp) (by rw [items])
    (fun k after there => ⟨after, items ▸ there, rfl, .inl rfl⟩) shut

/-- A worker that has claimed an item opens a session, or the extraction is over at once. -/
theorem Jammed.open (opening : (x.backend source false).opening = .ok ())
    (closing : ∃ f, (x.backend source false).closing = some f ∧ f.isSystem = false) {k : Nat}
    {rest : List Worker}
    (jammed : Jammed base place source lease { p with workers := .claimed k :: rest }) :
    Jammed base place source lease (p.turn x onProgress (.claimed k) rest) := by
  simp only [Pass.turn, Pass.advance]
  split
  · exact jammed.still rfl rfl (by simp)
  · next item hat =>
    rcases x.openItem_cases p.registry item with
      ⟨start, registry, same, hnone, refused, ended⟩ | opened
    · rw [ended]
      obtain ⟨drained, content⟩ := x.conclude_drained (x.decoding p.registry item) start
      rw [registry, hnone, same] at drained
      rw [same] at content
      -- The session for the item at the place can be opened, so it is another item.
      have ne : k ≠ place := fun here => by
        obtain ⟨other, hat', rfl, held⟩ := jammed.item
        obtain rfl : item = other := Option.some.inj (hat.symm.trans (here ▸ hat'))
        exact refused (by simp [held]) (jammed.decoding_open held ▸ opening)
      refine jammed.absorb hat drained ?_ ?_ ?_ (content.imp_right fun gone => ⟨ne, gone⟩)
      · refine drained.kept lease jammed.held fun own => ?_
        have held : item.content = some lease.id := by simpa using own
        exact (jammed.contents k item lease.id hat held).2 ne rfl
      · intro j s mem own
        have held : item.content = some s := by simpa using own
        have le := (jammed.contents k item s hat held).1
        have lt := (jammed.sessions j s (List.mem_cons_of_mem _ mem)).1
        omega
      · rw [(Item.label_of_described (frame_conclude x _ _).2).2.1, same]
    · rw [opened]
      exact jammed.acquire closing hat

/-- A worker with an open session ends the extraction. -/
theorem Jammed.finish {k session : Nat} {rest : List Worker}
    (jammed : Jammed base place source lease { p with workers := .opened k session :: rest }) :
    Jammed base place source lease (p.turn x onProgress (.opened k session) rest) := by
  simp only [Pass.turn, Pass.advance]
  split
  · exact jammed.still rfl rfl (by simp)
  · next item hat =>
    obtain ⟨drained, content⟩ := x.conclude_drained (x.decoding p.registry item)
      { registry := p.registry, item := item, session := some session }
    have named := (Item.label_of_described (frame_conclude x (x.decoding p.registry item)
      { registry := p.registry, item := item, session := some session }).2).2.1
    have fresh := (jammed.sessions k session List.mem_cons_self).1
    have others : ∀ j s, .opened j s ∈ rest →
        s ∉ (some session).toList ++ item.content.toList := by
      intro j s mem own
      rcases List.mem_append.1 own with own | own
      · obtain rfl : s = session := by simpa using own
        exact (List.nodup_cons.1 jammed.distinct).1 (List.mem_filterMap.2 ⟨_, mem, rfl⟩)
      · have le := (jammed.contents k item s hat (Option.mem_toList.1 own)).1
        have lt := (jammed.sessions j s (List.mem_cons_of_mem _ mem)).1
        omega
    by_cases here : k = place
    · subst here
      obtain ⟨jam, registered, rfl, bad⟩ := jammed.jam session List.mem_cons_self
      obtain ⟨other, hat', -, held⟩ := jammed.item
      obtain rfl : item = other := Option.some.inj (hat.symm.trans hat')
      have le := jammed.lease_le
      have race : Race.Jammed lease jam
          { registry := p.registry, item := item, session := some jam.id } :=
        ⟨bad, by omega, rfl, held, jammed.sound, jammed.held,
          .undecided rfl trivial trivial registered⟩
      obtain ⟨stays, same⟩ := x.conclude_jammed (x.decoding p.registry item) race
      exact jammed.absorb hat drained stays others named (.inl (same.trans held.symm))
    · refine jammed.absorb hat drained (drained.kept lease jammed.held fun own => ?_) others named
        (content.imp_right fun gone => ⟨here, gone⟩)
      rcases List.mem_append.1 own with own | own
      · have same : lease.id = session := by simpa using own
        have le := jammed.lease_le
        omega
      · exact (jammed.contents k item lease.id hat (Option.mem_toList.1 own)).2 here rfl

/-- One turn of a worker. -/
theorem Jammed.advance (opening : (x.backend source false).opening = .ok ())
    (closing : ∃ f, (x.backend source false).closing = some f ∧ f.isSystem = false) {w : Worker}
    {rest : List Worker}
    (jammed : Jammed base place source lease { p with workers := w :: rest }) :
    Jammed base place source lease (p.turn x onProgress w rest) := by
  cases w with
  | idle =>
    simp only [Pass.turn, Pass.advance]
    split <;> exact jammed.still rfl rfl (by simp)
  | claimed k => exact jammed.open opening closing
  | opened k session => exact jammed.finish
  | extracted result =>
    obtain ⟨registry, items⟩ := registry_record onProgress p result
    refine jammed.still registry items ?_
    unfold Pass.advance record
    dsimp only
    split <;> simp
  | stopped failed => exact jammed.still rfl rfl (by simp [Pass.advance])

/-- Under every order of the workers' steps. -/
theorem Jammed.run (opening : (x.backend source false).opening = .ok ())
    (closing : ∃ f, (x.backend source false).closing = some f ∧ f.isSystem = false)
    (jammed : Jammed base place source lease p) (order : List Nat) :
    Jammed base place source lease (p.run x onProgress order) :=
  run_induction (P := fun _ => Jammed base place source lease) []
    (fun _ _ _ jammed => jammed.perm)
    (fun _ _ _ _ jammed workers => (jammed.perm workers).advance opening closing) jammed order

theorem jammed_start (furnished : Furnished base items) {item : Item}
    (hat : items[place]? = some item) (registered : lease ∈ base.registered)
    (held : item.content = some lease.id) (n : Nat) :
    Jammed base place item.source lease (start base items n) where
  sound := furnished.sound
  issued := Nat.le_refl _
  held := registered
  item := ⟨item, hat, rfl, held⟩
  contents k other id hat' number := by
    obtain ⟨h, mem, rfl, -⟩ := furnished.lease other (List.mem_of_getElem? hat') id number
    exact ⟨furnished.sound.registered_le h mem,
      fun ne twice => ne (furnished.place_eq hat' hat number (twice ▸ held))⟩
  sessions k s mem := by cases List.eq_of_mem_replicate mem
  distinct := by
    have hnone : (List.replicate n Worker.idle).filterMap Worker.session? = [] :=
      List.filterMap_eq_nil_iff.2 fun w mem => by rw [List.eq_of_mem_replicate mem]; rfl
    rw [start, hnone]
    exact List.nodup_nil
  jam s mem := by cases List.eq_of_mem_replicate mem

/-- A pass without statistics has a reason. -/
theorem clean_of_ok {p : Pass} {elapsed : Binary64} {started : List Record} {stats : PassStats}
    (ok : (endPass p elapsed started).result = .ok stats) : p.firstFailure = none ∧
      p.registry.assertReleased [Registry.contentKind, Registry.decodeKind] = .ok () := by
  unfold endPass at ok
  dsimp only at ok
  split at ok
  · cases ok
  · next hnone =>
    split at ok
    · cases ok
    · next released => exact ⟨hnone, released⟩

/-- A pass with statistics has not been refused its first report. -/
theorem begun_of_ok {workers : Value} {elapsed : Binary64} {order : Nat → Nat → List Nat}
    {stats : PassStats}
    (ok : (runPass x workers onProgress elapsed base items order).result = .ok stats) :
    onProgress 0 items.length = none := by
  cases begun : onProgress 0 items.length with
  | none => rfl
  | some f =>
    simp only [runPass, begun] at ok
    cases ok

/-- A pass that ends with statistics has opened no session that cannot be closed. -/
theorem mildFor_of_ok (furnished : Furnished base items) {W : Nat} {elapsed : Binary64}
    {order : List Nat} {stats : PassStats}
    (ok : (runPass x (.int W) onProgress elapsed base items fun _ _ => order).result = .ok stats) :
    x.MildFor items := by
  intro item among there opening f closing
  by_contra severe
  obtain ⟨place, hat⟩ := List.mem_iff_getElem?.1 among
  obtain ⟨id, held⟩ := Option.ne_none_iff_exists'.1 there
  obtain ⟨lease, registered, rfl, kind, -⟩ := furnished.lease item among id held
  obtain ⟨started, -, ended⟩ := runPass_of_begun x base items (.int W) rfl
    (begun_of_ok ok) elapsed fun _ _ => order
  rw [ended] at ok
  have jammed : Jammed base place item.source lease
      ((start base items (min W items.length)).run x onProgress order) :=
    (jammed_start furnished hat registered held _).run opening
      ⟨f, closing, by simpa using severe⟩ order
  -- The content of the item is left over, which no pass with statistics allows.
  have left : lease ∈ ((start base items (min W items.length)).run x onProgress
      order).registry.leaked [Registry.contentKind, Registry.decodeKind] :=
    List.mem_filter.2 ⟨jammed.held, by simp [kind]⟩
  have released := (clean_of_ok ok).2
  rw [Registry.assertReleased] at released
  split at released
  · next hnone =>
    rw [hnone] at left
    exact List.not_mem_nil left
  · cases released

end Pass

end VideoCatalog
