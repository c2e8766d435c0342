import VideoCatalog.Proofs.Enrichment.Frames
import VideoCatalog.Proofs.Enrichment.Pass

/-!
# What a pass leaves behind

A pass whose callback raises leaves the contents of the items that it never claimed, and nothing
else.

* `PassRun`: the arguments of a pass, with its end, the places that it claims, and whether its
  callback has ended it.
* `PassRun.Fair`: every worker gets enough turns.
* `PassRun.Aftermath`: what is left; `Ready.aftermath` says that every pass leaves that.
-/

namespace VideoCatalog

/-- The arguments of a pass. -/
structure PassRun where
  extractor : Extractor
  workers : Value
  onProgress : Nat → Nat → Option Failure
  registry : Registry
  items : List Item
  order : Nat → Nat → List Nat := Pass.inTurn

namespace PassRun

/-- What the pass leaves. -/
def ending (r : PassRun) : PassEnd :=
  runPass r.extractor r.workers r.onProgress .zero r.registry r.items r.order

/-- The places that the workers claim. Nothing is claimed if the first report is refused. -/
def claimed (r : PassRun) : List Nat :=
  match r.onProgress 0 r.items.length, (poolWidth r.workers r.items.length).quantity? with
  | none, some (.whole n) =>
    Pass.claims (Pass.history r.extractor r.onProgress (r.order n.toNat r.items.length)
      (Pass.start r.registry r.items n.toNat))
  | _, _ => []

/-- Whether the pass ended with what its callback raised. -/
def Aborted (r : PassRun) : Prop :=
  ∃ f k, r.onProgress k r.items.length = some f ∧ r.ending.result = .error f

/-- Whether every worker gets the turns that it may need, however many workers there are. -/
def Fair (order : Nat → Nat → List Nat) : Prop :=
  ∀ workers items worker, worker < workers → 4 * items + 1 ≤ (order workers items).count worker

/-- What a pass needs: a lease for each item, at least one worker, fair turns, and sessions whose
closing raises nothing but refusals of the operating system. -/
structure Ready (r : PassRun) : Prop where
  leased : Leased r.registry r.items
  closing : ∀ path shut f, (r.extractor.backend path shut).closing = some f → f.isSystem = true
  wanted : ∃ W : Nat, 1 ≤ W ∧ r.workers.quantity? = some (.whole W)
  fair : Fair r.order

/-- Handles on contents are left only by a pass that its callback has ended, and only of items at
places that were never claimed. No other handle is new, and no closing is forgotten. -/
structure Aftermath (r : PassRun) : Prop where
  sound : r.ending.registry.Sound
  closings : r.registry.closings ⊆ r.ending.registry.closings
  kept : ∀ h ∈ r.ending.registry.registered, h ∈ r.registry.registered
  unclaimed : ∀ h ∈ r.ending.registry.registered, h.kind = Registry.contentKind →
    r.Aborted ∧ ∃ k item, k ∉ r.claimed ∧ r.ending.items[k]? = some item ∧
      item.content = some h.id
  described : r.ending.items.map Item.described = r.items.map Item.described

/-- The order in which every worker goes on until nothing is left for it is fair. -/
theorem fair_inTurn : Fair Pass.inTurn := by
  intro workers items worker lt
  have mine : List.replicate (4 * items + 1) worker ∈
      (List.range workers).map fun w => List.replicate (4 * items + 1) w :=
    List.mem_map.2 ⟨worker, List.mem_range.2 lt, rfl⟩
  have sublist := List.sublist_flatten_of_mem mine
  calc 4 * items + 1 = (List.replicate (4 * items + 1) worker).count worker := by simp
    _ ≤ (Pass.inTurn workers items).count worker := sublist.count_le worker

end PassRun

namespace Pass

variable {x : Extractor} {onProgress : Nat → Nat → Option Failure} {registry : Registry}
  {items : List Item} {past : List PassEvent} {p : Pass}

theorem frame_endPass (p : Pass) (elapsed : Binary64) (started : List Record) :
    (endPass p elapsed started).registry = p.registry ∧
      (endPass p elapsed started).items = p.items := by
  unfold endPass
  dsimp only
  split
  · exact ⟨rfl, rfl⟩
  · split <;> exact ⟨rfl, rfl⟩

/-- Whatever becomes of a pass, its items are described as they were. -/
theorem described_runPass (x : Extractor) (workers : Value)
    (onProgress : Nat → Nat → Option Failure) (elapsed : Binary64) (registry : Registry)
    (items : List Item) (order : Nat → Nat → List Nat) :
    (runPass x workers onProgress elapsed registry items order).items.map Item.described =
      items.map Item.described := by
  unfold runPass
  dsimp only
  split
  · rfl
  · split
    · rw [(frame_endPass _ _ _).2]
    · split
      · rw [(frame_endPass _ _ _).2]
        exact (frame_run _ (.refl registry)).2
      · rfl

/-- When all workers have stopped, the only handles left on contents are those of places that were
not claimed; if there are any, every worker was stopped by the callback. -/
theorem Books.unclaimed (books : Books onProgress items past p) (working : p.workers ≠ [])
    (quit : ∀ w ∈ p.workers, ∃ failed, w = .stopped failed) {h : Handle}
    (mem : h ∈ p.registry.registered) (kind : h.kind = Registry.contentKind) :
    (∃ k item, k ∉ claims past ∧ p.items[k]? = some item ∧ item.content = some h.id) ∧
      ∃ f k, p.firstFailure = some f ∧ onProgress k items.length = some f := by
  have stock := books.stock
  obtain ⟨busy, -, sessions⟩ := idle_of_stopped quit
  rw [busy, sessions] at stock
  obtain ⟨k, item, hat, left, held⟩ := stock.holds.owned h mem kind
  have places : (done past).Perm (List.range p.cursor.next) := by simpa using stock.places
  have beyond : k ∉ List.range p.cursor.next := fun hin => left (places.mem_iff.2 hin)
  obtain ⟨bound, -⟩ := List.getElem?_eq_some_iff.1 hat
  have raised : ∀ failed, .stopped failed ∈ p.workers →
      ∃ f k, failed = some f ∧ onProgress k items.length = some f := by
    intro failed among
    rcases books.stopped failed among with ⟨-, all⟩ | raised
    · rw [all, List.mem_range] at beyond
      exact absurd bound beyond
    · exact raised
  refine ⟨⟨k, item, stock.claims ▸ beyond, (stock.left k left).trans hat, held⟩, ?_⟩
  cases first : p.firstFailure with
  | none =>
    obtain ⟨w, among⟩ := List.exists_mem_of_ne_nil _ working
    obtain ⟨failed, rfl⟩ := quit w among
    obtain ⟨f, j, rfl, -⟩ := raised failed among
    exact absurd (List.findSome?_eq_none_iff.1 first _ among) (by simp)
  | some f =>
    obtain ⟨w, among, found⟩ := List.exists_of_findSome?_eq_some first
    obtain ⟨failed, rfl⟩ := quit w among
    obtain ⟨g, j, rfl, said⟩ := raised failed among
    obtain rfl : g = f := Option.some.inj found
    exact ⟨g, j, rfl, said⟩

/-- When all workers have stopped, no session is open. -/
theorem Books.no_decode (books : Books onProgress items past p)
    (quit : ∀ w ∈ p.workers, ∃ failed, w = .stopped failed) :
    ∀ h ∈ p.registry.registered, h.kind ≠ Registry.decodeKind := by
  intro h mem kind
  have opened := books.stock.holds.opened h mem kind
  rw [(idle_of_stopped quit).2.2] at opened
  exact List.not_mem_nil opened

end Pass

namespace PassRun

variable {r : PassRun}

/-- A pass whose first report is refused leaves everything as it was. -/
theorem Ready.aftermath_of_refused (ready : r.Ready) {f : Failure}
    (refused : r.onProgress 0 r.items.length = some f) : r.Aftermath := by
  have leased := ready.leased
  have ended : r.ending = { registry := r.registry, items := r.items, result := .error f
                            reports := [(0, r.items.length)], log := [] } := by
    simp only [ending, runPass, refused]
  have none_claimed : r.claimed = [] := by simp only [claimed, refused]
  have aborted : r.Aborted := ⟨f, 0, refused, by rw [ended]⟩
  constructor
  · exact ended ▸ leased.sound
  · rw [ended]
    exact List.Subset.refl _
  · rw [ended]
    exact fun h mem => mem
  · intro h mem kind
    rw [ended] at mem ⊢
    obtain ⟨item, among, held⟩ := leased.owned h mem kind
    obtain ⟨k, hat⟩ := List.mem_iff_getElem?.1 among
    exact ⟨aborted, k, item, by simp [none_claimed], hat, held⟩
  · rw [ended]

/-- The workers of a pass that sets out, when they have all stopped. -/
theorem Ready.set_out (ready : r.Ready) (begun : r.onProgress 0 r.items.length = none) :
    ∃ (n : Nat) (p : Pass) (started : List Record),
      (poolWidth r.workers r.items.length).quantity? = some (.whole n) ∧
      p = (Pass.start r.registry r.items n).run r.extractor r.onProgress
        (r.order n r.items.length) ∧
      r.ending = endPass p .zero started ∧
      Pass.Books r.onProgress r.items (Pass.history r.extractor r.onProgress
        (r.order n r.items.length) (Pass.start r.registry r.items n)) p ∧
      (p.workers ≠ [] ∨ r.items = []) ∧ ∀ w ∈ p.workers, ∃ failed, w = .stopped failed := by
  obtain ⟨W, positive, wanted⟩ := ready.wanted
  obtain ⟨started, -, ended⟩ :=
    Pass.runPass_of_begun r.extractor r.registry r.items _ wanted begun .zero r.order
  exact ⟨min W r.items.length, _, started, Pass.quantity?_poolWidth wanted _, rfl, ended,
    Pass.books_run ready.leased.furnished (Extractor.mildFor_of_mild ready.closing r.items) _ _,
    Pass.working_run positive _,
    Pass.stopped_of_enough _ _ fun worker lt => ready.fair _ _ worker lt⟩

/-- What the workers of a pass leave, once they have set out. -/
theorem Ready.aftermath_of_begun (ready : r.Ready) (begun : r.onProgress 0 r.items.length = none) :
    r.Aftermath := by
  obtain ⟨n, p, started, width, ran, ended, books, working, quit⟩ := ready.set_out begun
  have claims : r.claimed = Pass.claims (Pass.history r.extractor r.onProgress
      (r.order n r.items.length) (Pass.start r.registry r.items n)) := by
    simp only [claimed, begun, width, Int.toNat_natCast]
  obtain ⟨drawn, described⟩ : r.registry.Drawn p.registry ∧
      p.items.map Item.described = r.items.map Item.described :=
    ran ▸ Pass.frame_run _ (.refl r.registry)
  obtain ⟨registry, items⟩ := Pass.frame_endPass p .zero started
  rw [← ended] at registry items
  constructor
  · exact registry ▸ books.stock.holds.sound
  · exact registry ▸ drawn.closings
  · intro h mem
    rw [registry] at mem
    exact (drawn.registered h mem).resolve_right (books.no_decode quit h mem)
  · intro h mem kind
    rw [registry] at mem
    rw [items, claims]
    have some_working : p.workers ≠ [] := by
      obtain ⟨k, item, hat, -⟩ := books.stock.holds.owned h mem kind
      obtain ⟨bound, -⟩ := List.getElem?_eq_some_iff.1 hat
      exact working.resolve_right (List.ne_nil_of_length_pos (Nat.zero_lt_of_lt bound))
    obtain ⟨place, f, k, first, raised⟩ := books.unclaimed some_working quit mem kind
    exact ⟨⟨f, k, raised, by rw [ended, endPass]; simp only [first]⟩, place⟩
  · rw [items, described]

/-- What every pass leaves, under every fair order. -/
theorem Ready.aftermath (ready : r.Ready) : r.Aftermath := by
  cases begun : r.onProgress 0 r.items.length with
  | some f => exact ready.aftermath_of_refused begun
  | none => exact ready.aftermath_of_begun begun

end PassRun

end VideoCatalog
