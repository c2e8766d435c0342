import VideoCatalog.Proofs.Enrichment.Extraction
import VideoCatalog.Proofs.Enrichment.Workers

/-!
# What a pass leaves alone

Under every order of steps, and whatever the callback raises.

* `Race.spent_run`: a race takes handles out and registers none.
* `Registry.Drawn`: nothing was registered but decode sessions, and no closing is forgotten.
* `Pass.frame_run`: a pass only learns about its items, and its registry is drawn from the one that
  it began with.
-/

namespace VideoCatalog

namespace Race

variable {encoder : Encoder} {settings : ExtractionSettings}
  {decoding : Decoding} {r r' : Race}

theorem spent_releaseStep (r : Race) (next : Release) :
    r.registry.Spent (r.releaseStep next).1.registry := by
  cases next with
  | session =>
    unfold releaseStep
    dsimp only
    split <;> exact Registry.spent_release? r.registry r.session
  | content =>
    unfold releaseStep
    dsimp only
    split <;> exact Registry.spent_release? r.registry r.item.content
  | finish failed => exact .refl _

theorem DecodeMove.spent (move : DecodeMove decoding r r') : r.registry.Spent r'.registry := by
  cases move with
  | release => exact spent_releaseStep r _
  | _ => exact .refl _

theorem DeadlineMove.spent (move : DeadlineMove r r') : r.registry.Spent r'.registry := by
  cases move with
  | release => exact spent_releaseStep r _
  | _ => exact .refl _

/-- A race registers nothing. -/
theorem spent_run (order : List Party) (r : Race) :
    r.registry.Spent (r.run encoder settings decoding order).registry :=
  run_induction (P := fun r' => r.registry.Spent r'.registry)
    (fun _ _ move spent => spent.trans move.spent)
    (fun _ _ move spent => spent.trans move.spent) order (.refl _)

end Race

/-- Nothing was registered since but decode sessions, and what was closed stays closed. -/
structure Registry.Drawn (base r : Registry) : Prop where
  registered : ∀ h ∈ r.registered, h ∈ base.registered ∨ h.kind = Registry.decodeKind
  closings : base.closings ⊆ r.closings

namespace Registry.Drawn

variable {base r r' : Registry}

theorem refl (r : Registry) : Drawn r r := ⟨fun _ mem => .inl mem, fun _ mem => mem⟩

theorem spent (drawn : Drawn base r) (spent : r.Spent r') : Drawn base r' :=
  ⟨fun h mem => drawn.registered h (spent.registered mem),
    List.Subset.trans drawn.closings spent.closings⟩

theorem acquire (drawn : Drawn base r) (fault : Option Failure) :
    Drawn base (r.acquire decodeKind fault).2 := by
  refine ⟨fun h mem => ?_, drawn.closings⟩
  rcases List.mem_append.1 mem with old | new
  · exact drawn.registered h old
  · exact .inr (by rw [List.mem_singleton.1 new])

end Registry.Drawn

namespace Extractor

variable {base registry : Registry}

/-- The extraction of an item is over without a session, or its session is the newest handle. -/
theorem openItem_cases (x : Extractor) (registry : Registry) (item : Item) :
    (∃ start : Race, start.registry = registry ∧ start.item = item ∧ start.session = none ∧
        (item.content ≠ none → (x.decoding registry item).opening ≠ .ok ()) ∧
        x.openItem registry item = .inl (x.conclude (x.decoding registry item) start)) ∨
      x.openItem registry item = .inr (registry.issued + 1,
        (registry.acquire Registry.decodeKind (x.decoding registry item).closing).2) := by
  cases held : item.content with
  | none =>
    refine .inl ⟨x.begin registry item, ?_, ?_, ?_, by simp, ?_⟩ <;> simp [openItem, begin, held]
  | some id =>
    cases opening : (x.decoding registry item).opening with
    | error f =>
      refine .inl ⟨x.begin registry item, ?_, ?_, ?_, by simp, ?_⟩ <;>
        simp [openItem, begin, held, opening]
    | ok _ =>
      refine .inr ?_
      simp only [openItem, begin, held, opening]
      rfl

/-- An extraction ends with what its race leaves. -/
theorem frame_conclude (x : Extractor) (decoding : Decoding) (start : Race) :
    start.registry.Spent (x.conclude decoding start).registry ∧
      (x.conclude decoding start).item.described = start.item.described := by
  obtain ⟨order, later, met, ended, hm, he, registry, item, -⟩ := conclude_runs x decoding start
  have spent : start.registry.Spent met.registry := hm ▸ Race.spent_run order start
  have spent' : met.registry.Spent ended.registry := he ▸ Race.spent_run later met
  have described : met.item.described = start.item.described :=
    hm ▸ Race.described_run order start
  have described' : ended.item.described = met.item.described := he ▸ Race.described_run later met
  exact ⟨registry ▸ spent.trans spent', item ▸ described'.trans described⟩

end Extractor

namespace Pass

variable {x : Extractor} {onProgress : Nat → Nat → Option Failure} {base : Registry} {p : Pass}

/-- Putting an item that is described alike in the place of another. -/
theorem described_set {items : List Item} {place : Nat} {before after : Item}
    (hat : items[place]? = some before) (same : after.described = before.described) :
    (items.set place after).map Item.described = items.map Item.described := by
  refine List.ext_getElem? fun k => ?_
  rw [List.getElem?_map, List.getElem?_map]
  by_cases here : place = k
  · subst here
    rw [List.getElem?_set_self (List.getElem?_eq_some_iff.1 hat).1, hat, Option.map_some,
      Option.map_some, same]
  · rw [List.getElem?_set_ne here]

theorem registry_absorb (p : Pass) (place : Nat) (done : Extracted) :
    (p.absorb place done).1.registry = done.registry ∧
      (p.absorb place done).1.items = p.items.set place done.item := by
  unfold absorb
  dsimp only
  split <;> exact ⟨rfl, rfl⟩

variable (onProgress) in
theorem registry_record (p : Pass) (result : ExtractionResult) :
    (p.record onProgress result).1.registry = p.registry ∧
      (p.record onProgress result).1.items = p.items := by
  unfold record
  dsimp only
  split <;> exact ⟨rfl, rfl⟩

variable (x onProgress) in
theorem frame_turn (drawn : base.Drawn p.registry) (w : Worker) :
    base.Drawn (p.advance x onProgress w).1.registry ∧
      (p.advance x onProgress w).1.items.map Item.described = p.items.map Item.described := by
  have absorbed {place : Nat} {item : Item} {done : Extracted} (hat : p.items[place]? = some item)
      (drawn' : base.Drawn done.registry) (same : done.item.described = item.described) :
      base.Drawn (p.absorb place done).1.registry ∧
        (p.absorb place done).1.items.map Item.described = p.items.map Item.described := by
    obtain ⟨registry, items⟩ := registry_absorb p place done
    rw [registry, items]
    exact ⟨drawn', described_set hat same⟩
  cases w with
  | idle =>
    unfold advance
    dsimp only
    split <;> exact ⟨drawn, rfl⟩
  | claimed place =>
    unfold advance
    dsimp only
    split
    · exact ⟨drawn, rfl⟩
    · next item hat =>
      rcases x.openItem_cases p.registry item with ⟨start, registry, same, -, -, ended⟩ | opened
      · obtain ⟨spent, described⟩ := x.frame_conclude (x.decoding p.registry item) start
        rw [registry] at spent
        rw [ended]
        exact absorbed hat (drawn.spent spent) (described.trans (congrArg Item.described same))
      · rw [opened]
        exact ⟨drawn.acquire _, rfl⟩
  | opened place session =>
    unfold advance
    dsimp only
    split
    · exact ⟨drawn, rfl⟩
    · next item hat =>
      obtain ⟨spent, described⟩ := Extractor.frame_conclude x (x.decoding p.registry item)
        { registry := p.registry, item := item, session := some session }
      exact absorbed hat (drawn.spent spent) described
  | extracted result =>
    obtain ⟨registry, items⟩ := registry_record onProgress p result
    unfold advance
    rw [registry, items]
    exact ⟨drawn, rfl⟩
  | stopped failed => exact ⟨drawn, rfl⟩

/-- Whatever the order of the workers' steps. -/
theorem frame_run (order : List Nat) (drawn : base.Drawn p.registry) :
    base.Drawn (p.run x onProgress order).registry ∧
      (p.run x onProgress order).items.map Item.described = p.items.map Item.described := by
  refine run_induction
    (P := fun _ q => base.Drawn q.registry ∧
      q.items.map Item.described = p.items.map Item.described) []
    (fun _ _ _ kept _ => kept) (fun _ q w _ kept _ => ?_) ⟨drawn, rfl⟩ order
  obtain ⟨next, described⟩ := frame_turn x onProgress kept.1 w
  exact ⟨next, described.trans kept.2⟩

end Pass

end VideoCatalog
