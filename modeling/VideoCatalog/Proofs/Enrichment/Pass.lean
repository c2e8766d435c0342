import Mathlib.Data.List.Range
import VideoCatalog.Proofs.Enrichment.Leases
import VideoCatalog.Proofs.Enrichment.Workers

/-!
# A pass extracts every item once

The ledger of a pass ties the places that were claimed to those that were extracted and those
that some worker is busy with, and the counters to the results.

* `Pass.Stock`, `Pass.Tally`: the two halves of the ledger, with one lemma for each thing that a
  worker does.
* `Pass.Books`: the ledger of what all workers have in hand; `Books.advance` is one step,
  `Books.run` a run.
* `Pass.Invariant`: the same for a callback that raises nothing.
* `Pass.extracts_each_once`: the main statement.
-/

namespace VideoCatalog.Pass

variable {x : Extractor} {onProgress : Nat → Nat → Option Failure} {registry : Registry}
  {items : List Item} {past : List PassEvent} {busy sessions : List Nat}
  {pending : List ExtractionResult} {p : Pass}

/-! ### What has been done -/

@[simp] theorem claims_concat (past : List PassEvent) (e : PassEvent) :
    claims (past ++ [e]) = claims past ++ e.claimed?.toList := by
  cases e <;> simp [claims, PassEvent.claimed?]

@[simp] theorem extractions_concat (past : List PassEvent) (e : PassEvent) :
    extractions (past ++ [e]) = extractions past ++ e.extracted?.toList := by
  cases e <;> simp [extractions, PassEvent.extracted?]

@[simp] theorem done_concat (past : List PassEvent) (e : PassEvent) :
    done (past ++ [e]) = done past ++ (e.extracted?.map (·.1)).toList := by
  cases e <;> simp [done, PassEvent.extracted?]

@[simp] theorem counted_concat (past : List PassEvent) (e : PassEvent) :
    counted (past ++ [e]) = counted past ++ e.counted?.toList := by
  cases e <;> simp [counted, PassEvent.counted?]

/-! ### The ledger -/

/-- What holds of the places and the registry of a pass over some items after what its workers have
done, when they are busy with some places and have opened some sessions. -/
structure Stock (items : List Item) (past : List PassEvent) (busy sessions : List Nat)
    (p : Pass) : Prop where
  limit : p.cursor.limit = items.length
  next_le : p.cursor.next ≤ items.length
  length : p.items.length = items.length
  claims : claims past = List.range p.cursor.next
  places : (done past ++ busy).Perm (List.range p.cursor.next)
  left : ∀ k, k ∉ done past → p.items[k]? = items[k]?
  emptied : ∀ k ∈ done past, ∀ item, p.items[k]? = some item → item.content = none
  holds : Holds items (done past) sessions p.registry

/-- What holds of its counters and reports, when the workers have still to count some results. -/
structure Tally (items : List Item) (past : List PassEvent) (pending : List ExtractionResult)
    (p : Pass) : Prop where
  results : (counted past ++ pending).Perm ((extractions past).map (·.2))
  completed : p.completed = (counted past).length
  timedOut : p.timedOut = (counted past).countP (·.outcome = .timeout)
  failed : p.failed = (counted past).countP (·.outcome = .error)
  reports : p.reports = (List.range (p.completed + 1)).map fun k => (k, items.length)

/-- Both together. -/
structure Ledger (items : List Item) (past : List PassEvent) (busy : List Nat)
    (pending : List ExtractionResult) (sessions : List Nat) (p : Pass) : Prop
    extends Stock items past busy sessions p, Tally items past pending p

/-- Only the cursor, the registry and the items count, and the order of what the workers have in
hand does not matter. -/
theorem Stock.congr (stock : Stock items past busy sessions p) {q : Pass}
    {busy' sessions' : List Nat}
    (same : q = { q with cursor := p.cursor, registry := p.registry, items := p.items })
    (hb : busy.Perm busy') (hs : sessions.Perm sessions') : Stock items past busy' sessions' q := by
  rw [same]
  exact ⟨stock.limit, stock.next_le, stock.length, stock.claims,
    (hb.symm.append_left _).trans stock.places, stock.left, stock.emptied,
    stock.holds.perm (.refl _) hs⟩

/-- Only the counters and the reports count, and the order of the results does not matter. -/
theorem Tally.congr (tally : Tally items past pending p) {q : Pass}
    {pending' : List ExtractionResult}
    (same : q = { q with completed := p.completed, timedOut := p.timedOut, failed := p.failed
                         reports := p.reports })
    (hp : pending.Perm pending') : Tally items past pending' q := by
  rw [same]
  exact ⟨(hp.symm.append_left _).trans tally.results, tally.completed, tally.timedOut,
    tally.failed, tally.reports⟩

/-- The place that a worker is busy with has an item that was not extracted. -/
theorem Stock.there {k : Nat} (stock : Stock items past (k :: busy) sessions p) :
    k ∉ done past ∧ ∃ item, items[k]? = some item ∧ p.items[k]? = some item := by
  have nodup : (done past ++ k :: busy).Nodup := stock.places.nodup_iff.2 List.nodup_range
  have out : k ∉ done past := fun mem =>
    (List.nodup_append.1 nodup).2.2 k mem k List.mem_cons_self rfl
  have lt : k < p.cursor.next :=
    List.mem_range.1 (stock.places.mem_iff.1 (List.mem_append_right _ List.mem_cons_self))
  have bound : k < items.length := Nat.lt_of_lt_of_le lt stock.next_le
  exact ⟨out, items[k], List.getElem?_eq_getElem bound,
    (stock.left k out).trans (List.getElem?_eq_getElem bound)⟩

/-- A worker claims the next place. -/
theorem Stock.claim (stock : Stock items past busy sessions p)
    (more : p.cursor.next < items.length) :
    Stock items (past ++ [.claim p.cursor.next]) (p.cursor.next :: busy) sessions
      { p with cursor := { p.cursor with next := p.cursor.next + 1 } } where
  limit := stock.limit
  next_le := more
  length := stock.length
  claims := by
    rw [claims_concat, stock.claims]
    exact List.range_succ.symm
  places := by
    simp only [done_concat, PassEvent.extracted?, Option.map_none, Option.toList_none,
      List.append_nil, List.range_succ]
    -- The new place is the last of the range and the first of those that workers are busy with.
    refine List.perm_middle.trans ((stock.places.cons _).trans ?_)
    exact (List.perm_append_singleton _ _).symm
  left := by simpa [PassEvent.extracted?] using stock.left
  emptied := by simpa [PassEvent.extracted?] using stock.emptied
  holds := by simpa [PassEvent.extracted?] using stock.holds

theorem Tally.claim (tally : Tally items past pending p) (k : Nat) :
    Tally items (past ++ [.claim k]) pending p where
  results := by simpa [PassEvent.extracted?, PassEvent.counted?] using tally.results
  completed := by simpa [PassEvent.counted?] using tally.completed
  timedOut := by simpa [PassEvent.counted?] using tally.timedOut
  failed := by simpa [PassEvent.counted?] using tally.failed
  reports := tally.reports

/-- A worker opens a session. -/
theorem Stock.open (stock : Stock items past busy sessions p) {closing : Option Failure}
    (mild : ∀ f, closing = some f → f.isSystem = true) :
    Stock items past busy ((p.registry.issued + 1) :: sessions)
      { p with registry := (p.registry.acquire Registry.decodeKind closing).2 } :=
  { stock with holds := stock.holds.acquire mild }

/-- A worker ends the extraction of the item that it is busy with. -/
theorem Stock.extract {held : List Nat} {k : Nat} {e : Extracted} {result : ExtractionResult}
    (stock : Stock items past (k :: busy) held p) (gone : e.item.content = none)
    (holds : Holds items (done past ++ [k]) sessions e.registry) :
    Stock items (past ++ [.extract k result]) busy sessions
      { p with registry := e.registry, items := p.items.set k e.item } where
  limit := stock.limit
  next_le := stock.next_le
  length := by simpa using stock.length
  claims := by simpa [PassEvent.claimed?] using stock.claims
  places := by simpa [PassEvent.extracted?] using stock.places
  left j out := by
    simp only [done_concat, PassEvent.extracted?, Option.map_some, Option.toList_some,
      List.mem_append, List.mem_singleton, not_or] at out
    exact (List.getElem?_set_ne (Ne.symm out.2)).trans (stock.left j out.1)
  emptied j mem other there := by
    simp only [done_concat, PassEvent.extracted?, Option.map_some, Option.toList_some,
      List.mem_append, List.mem_singleton] at mem
    by_cases same : k = j
    · subst same
      obtain ⟨-, _, -, before⟩ := stock.there
      rw [List.getElem?_set_self (List.getElem?_eq_some_iff.1 before).1] at there
      rw [← Option.some.inj there]
      exact gone
    · rw [List.getElem?_set_ne same] at there
      exact stock.emptied j (mem.resolve_right (Ne.symm same)) other there
  holds := by simpa [PassEvent.extracted?] using holds

theorem Tally.extract (tally : Tally items past pending p) (k : Nat) (result : ExtractionResult) :
    Tally items (past ++ [.extract k result]) (result :: pending) p where
  results := by
    simp only [counted_concat, PassEvent.counted?, Option.toList_none, List.append_nil,
      extractions_concat, PassEvent.extracted?, Option.toList_some, List.map_append, List.map_cons,
      List.map_nil]
    refine List.perm_middle.trans ((tally.results.cons _).trans ?_)
    exact (List.perm_append_singleton _ _).symm
  completed := by simpa [PassEvent.counted?] using tally.completed
  timedOut := by simpa [PassEvent.counted?] using tally.timedOut
  failed := by simpa [PassEvent.counted?] using tally.failed
  reports := tally.reports

/-- A worker counts and reports the result of an extraction. -/
theorem Stock.count (stock : Stock items past busy sessions p) (result : ExtractionResult) :
    Stock items (past ++ [.count result]) busy sessions p :=
  { stock with
    claims := by simpa [PassEvent.claimed?] using stock.claims
    places := by simpa [PassEvent.extracted?] using stock.places
    left := by simpa [PassEvent.extracted?] using stock.left
    emptied := by simpa [PassEvent.extracted?] using stock.emptied
    holds := by simpa [PassEvent.extracted?] using stock.holds }

theorem Tally.count {result : ExtractionResult} (tally : Tally items past (result :: pending) p) :
    Tally items (past ++ [.count result]) pending
      { p with
        completed := p.completed + 1
        timedOut := p.timedOut + (if result.outcome = .timeout then 1 else 0)
        failed := p.failed + (if result.outcome = .error then 1 else 0)
        reports := p.reports ++ [(p.completed + 1, items.length)] } where
  results := by simpa [PassEvent.extracted?, PassEvent.counted?] using tally.results
  completed := by simp [PassEvent.counted?, tally.completed]
  timedOut := by simp [PassEvent.counted?, tally.timedOut, List.countP_singleton]
  failed := by simp [PassEvent.counted?, tally.failed, List.countP_singleton]
  reports := by
    rw [tally.reports, List.range_succ (n := p.completed + 1), List.map_append]
    rfl

/-! ### The invariant -/

/-- The ledger of what all workers have in hand. A worker only stops when nothing is left to claim
or when the callback raises; from then on the counters are of no use. -/
structure Books (onProgress : Nat → Nat → Option Failure) (items : List Item)
    (past : List PassEvent) (p : Pass) : Prop where
  stock : Stock items past (p.workers.filterMap Worker.place?)
    (p.workers.filterMap Worker.session?) p
  tally : (∀ failed, .stopped failed ∈ p.workers → failed = none) →
    Tally items past (p.workers.filterMap Worker.result?) p
  stopped : ∀ failed, .stopped failed ∈ p.workers →
    failed = none ∧ p.cursor.next = items.length ∨
      ∃ f k, failed = some f ∧ onProgress k items.length = some f
  opens : ∀ k session, .opened k session ∈ p.workers → ∀ item, items[k]? = some item →
    item.content ≠ none

theorem Books.perm (books : Books onProgress items past p) {ws : List Worker}
    (same : p.workers.Perm ws) : Books onProgress items past { p with workers := ws } where
  stock := books.stock.congr rfl (same.filterMap _) (same.filterMap _)
  tally sound := (books.tally fun failed mem => sound failed (same.mem_iff.1 mem)).congr rfl
    (same.filterMap _)
  stopped failed mem := books.stopped failed (same.mem_iff.2 mem)
  opens k session mem := books.opens k session (same.mem_iff.2 mem)

theorem absorb_of_ok {k : Nat} {e : Extracted} {result : ExtractionResult}
    (ok : e.result = .ok result) :
    p.absorb k e =
      ({ p with
          registry := e.registry, items := p.items.set k e.item, log := p.log ++ e.log
          opened := p.opened ++ e.opened, commands := p.commands ++ e.commands },
        .extracted result) := by
  simp only [absorb, ok]

/-! What a turn of the first worker leaves of the books. -/

section Turn

variable {w : Worker} {rest : List Worker}

theorem Books.stock_perm (books : Books onProgress items past p)
    (workers : p.workers.Perm (w :: rest)) :
    Stock items past ((w :: rest).filterMap Worker.place?)
      ((w :: rest).filterMap Worker.session?) p :=
  books.stock.congr rfl (workers.filterMap _) (workers.filterMap _)

/-- A worker that has not stopped is no news of the callback. -/
theorem Books.tally_before (books : Books onProgress items past p)
    (workers : p.workers.Perm (w :: rest)) (going : ∀ failed, w ≠ .stopped failed) {v : Worker}
    (unbroken : ∀ failed, .stopped failed ∈ v :: rest → failed = none) :
    Tally items past ((w :: rest).filterMap Worker.result?) p := by
  refine (books.tally fun failed mem => ?_).congr rfl (workers.filterMap _)
  have among : .stopped failed ∈ rest :=
    List.mem_of_ne_of_mem (going failed).symm (workers.mem_iff.1 mem)
  exact unbroken failed (List.mem_cons_of_mem _ among)

theorem Books.stopped_rest (books : Books onProgress items past p)
    (workers : p.workers.Perm (w :: rest)) {v : Worker} (going : ∀ failed, v ≠ .stopped failed)
    (failed : Option Failure) (mem : .stopped failed ∈ v :: rest) :
    failed = none ∧ p.cursor.next = items.length ∨
      ∃ f k, failed = some f ∧ onProgress k items.length = some f :=
  books.stopped failed (workers.mem_iff.2
    (List.mem_cons_of_mem _ (List.mem_of_ne_of_mem (going failed).symm mem)))

theorem Books.opens_rest (books : Books onProgress items past p)
    (workers : p.workers.Perm (w :: rest)) {v : Worker} (shut : ∀ k session, v ≠ .opened k session)
    (k session : Nat) (mem : .opened k session ∈ v :: rest) :
    ∀ item, items[k]? = some item → item.content ≠ none :=
  books.opens k session (workers.mem_iff.2
    (List.mem_cons_of_mem _ (List.mem_of_ne_of_mem (shut k session).symm mem)))

/-- An idle worker claims the next place, or stops. -/
theorem Books.claim (books : Books onProgress items past p)
    (workers : p.workers.Perm (.idle :: rest)) :
    Books onProgress items (past ++ p.news x onProgress .idle) (p.turn x onProgress .idle rest) := by
  have stock := books.stock_perm workers
  by_cases quit : items.length ≤ p.cursor.next
  · have claim : p.cursor.claim = (none, p.cursor) := by
      simp [ClaimCursor.claim, stock.limit, quit]
    simp only [turn, news, advance, claim, Worker.event, Option.toList_none, List.append_nil]
    refine ⟨stock.congr rfl (.refl _) (.refl _),
      fun unbroken => (books.tally_before workers (by simp) unbroken).congr rfl (.refl _),
      fun failed mem => ?_, books.opens_rest workers (by simp)⟩
    rcases List.mem_cons.1 mem with h | mem
    · cases h
      exact .inl ⟨rfl, Nat.le_antisymm stock.next_le quit⟩
    · exact books.stopped failed (workers.mem_iff.2 (List.mem_cons_of_mem _ mem))
  · have more := Nat.lt_of_not_le quit
    have claim : p.cursor.claim =
        (some p.cursor.next, { p.cursor with next := p.cursor.next + 1 }) := by
      simp [ClaimCursor.claim, stock.limit, quit]
    simp only [turn, news, advance, claim, Worker.event, Option.toList_some]
    refine ⟨(stock.claim more).congr rfl (.refl _) (.refl _),
      fun unbroken => ((books.tally_before workers (by simp) unbroken).claim _).congr rfl (.refl _),
      fun failed mem => ?_, books.opens_rest workers (by simp)⟩
    rcases books.stopped_rest workers (by simp) failed mem with ⟨-, all⟩ | raised
    · exact absurd all (Nat.ne_of_lt more)
    · exact .inr raised

/-- A worker takes over an extraction that has ended. -/
theorem Books.extract (books : Books onProgress items past p)
    (workers : p.workers.Perm (w :: rest)) {k : Nat} {e : Extracted}
    {result : ExtractionResult} (busy : w.place? = some k) (pending : w.result? = none)
    (going : ∀ failed, w ≠ .stopped failed) (ok : e.result = .ok result)
    (gone : e.item.content = none)
    (holds : Holds items (done past ++ [k]) (rest.filterMap Worker.session?) e.registry) :
    Books onProgress items (past ++ [.extract k result])
      { (p.absorb k e).1 with workers := (p.absorb k e).2 :: rest } := by
  have stock : Stock items past (k :: rest.filterMap Worker.place?)
      ((w :: rest).filterMap Worker.session?) p := by
    have stock := books.stock_perm workers
    rwa [List.filterMap_cons_some busy] at stock
  have before (unbroken : ∀ failed, .stopped failed ∈ .extracted result :: rest → failed = none) :
      Tally items past (rest.filterMap Worker.result?) p := by
    have tally := books.tally_before workers going unbroken
    rwa [List.filterMap_cons_none pending] at tally
  rw [absorb_of_ok ok]
  exact ⟨(Stock.extract stock gone holds).congr rfl (.refl _) (.refl _),
    fun unbroken => ((before unbroken).extract k result).congr rfl (.refl _),
    books.stopped_rest workers (by simp), books.opens_rest workers (by simp)⟩

/-- A worker that has claimed an item opens a session, or the extraction is over at once. -/
theorem Books.open (furnished : Furnished registry items) (closing : x.MildFor items)
    (books : Books onProgress items past p) {k : Nat}
    (workers : p.workers.Perm (.claimed k :: rest)) :
    Books onProgress items (past ++ p.news x onProgress (.claimed k))
      (p.turn x onProgress (.claimed k) rest) := by
  have stock := books.stock_perm workers
  obtain ⟨out, item, hat, there⟩ := Stock.there stock
  -- Without a session the extraction is over, and the item holds nothing.
  have atOnce {e : Extracted} {result : ExtractionResult}
      (ended : x.openItem p.registry item = .inl e) (ok : e.result = .ok result)
      (gone : e.item.content = none)
      (holds : Holds items (done past ++ [k]) (rest.filterMap Worker.session?) e.registry) :
      Books onProgress items (past ++ p.news x onProgress (.claimed k))
        (p.turn x onProgress (.claimed k) rest) := by
    have books := books.extract workers rfl rfl (by simp) ok gone holds
    simpa only [turn, news, advance, there, ended, absorb_of_ok ok, Worker.event,
      Option.toList_some] using books
  cases held : item.content with
  | none =>
    exact atOnce (Extractor.openItem_vacant x p.registry held) rfl held (stock.holds.skip hat held)
  | some id =>
    have stake := Holds.stake none stock.holds hat out held
    rcases Extractor.openItem_spec (x := x) stake held with ⟨e, ended, cleared⟩ | ⟨ok, opened⟩
    · obtain ⟨result, ok⟩ := cleared.result
      have left := Holds.without furnished none stock.holds hat out held
      exact atOnce ended ok cleared.content (cleared.registry ▸ left)
    · simp only [turn, news, advance, there, opened, Worker.event, Option.toList_none,
        List.append_nil]
      have mild := closing item (List.mem_of_getElem? hat) (by simp [held]) ok
      refine ⟨(stock.open mild).congr rfl (.refl _) (.refl _),
        fun unbroken => (books.tally_before workers (by simp) unbroken).congr rfl (.refl _),
        books.stopped_rest workers (by simp), fun j session mem other at_j => ?_⟩
      rcases List.mem_cons.1 mem with same | mem
      · cases same
        obtain rfl : item = other := Option.some.inj (hat.symm.trans at_j)
        simp [held]
      · exact books.opens j session (workers.mem_iff.2 (List.mem_cons_of_mem _ mem)) other at_j

/-- A worker with an open session ends the extraction. -/
theorem Books.finish (furnished : Furnished registry items)
    (books : Books onProgress items past p) {k session : Nat}
    (workers : p.workers.Perm (.opened k session :: rest)) :
    Books onProgress items (past ++ p.news x onProgress (.opened k session))
      (p.turn x onProgress (.opened k session) rest) := by
  have stock := books.stock_perm workers
  obtain ⟨out, item, hat, there⟩ := Stock.there stock
  obtain ⟨id, held⟩ := Option.ne_none_iff_exists'.1
    (books.opens k session (workers.mem_iff.2 List.mem_cons_self) item hat)
  have stake := Holds.stake (some session) stock.holds hat out held
  have left := Holds.without furnished (some session) stock.holds hat out held
  have cleared := Extractor.finishItem_spec x (x.decoding p.registry item) stake held
  obtain ⟨result, ok⟩ := cleared.result
  have books := books.extract workers rfl rfl (by simp) ok cleared.content (cleared.registry ▸ left)
  simpa only [turn, news, advance, there, absorb_of_ok ok, Worker.event, Option.toList_some]
    using books

/-- A worker counts its result and reports it. -/
theorem Books.count (books : Books onProgress items past p) {result : ExtractionResult}
    (workers : p.workers.Perm (.extracted result :: rest)) :
    Books onProgress items (past ++ p.news x onProgress (.extracted result))
      (p.turn x onProgress (.extracted result) rest) := by
  have stock := books.stock_perm workers
  cases raised : onProgress (p.completed + 1) p.items.length with
  | none =>
    simp only [turn, news, advance, record, raised, Worker.event, Option.toList_some]
    refine ⟨(stock.count result).congr rfl (.refl _) (.refl _), fun unbroken => ?_,
      books.stopped_rest workers (by simp), books.opens_rest workers (by simp)⟩
    rw [stock.length]
    exact (Tally.count (books.tally_before workers (by simp) unbroken)).congr rfl (.refl _)
  | some f =>
    simp only [turn, news, advance, record, raised, Worker.event, Option.toList_none,
      List.append_nil]
    refine ⟨stock.congr rfl (.refl _) (.refl _), fun unbroken => ?_, fun failed mem => ?_,
      books.opens_rest workers (by simp)⟩
    · cases unbroken (some f) List.mem_cons_self
    · rcases List.mem_cons.1 mem with h | mem
      · cases h
        exact .inr ⟨f, _, rfl, stock.length ▸ raised⟩
      · exact books.stopped failed (workers.mem_iff.2 (List.mem_cons_of_mem _ mem))

/-- One turn of a worker. -/
theorem Books.advance (furnished : Furnished registry items) (closing : x.MildFor items)
    (books : Books onProgress items past p) (workers : p.workers.Perm (w :: rest)) :
    Books onProgress items (past ++ p.news x onProgress w) (p.turn x onProgress w rest) := by
  cases w with
  | idle => exact books.claim workers
  | claimed k => exact books.open furnished closing workers
  | opened k session => exact books.finish furnished workers
  | extracted result => exact books.count workers
  | stopped failed =>
    simp only [turn, news, advance, Worker.event, Option.toList_none, List.append_nil]
    exact books.perm workers

end Turn

/-- One step of a pass. -/
theorem Books.step (furnished : Furnished registry items)
    (closing : x.MildFor items)
    (books : Books onProgress items past p) (worker : Nat) :
    Books onProgress items (past ++ (p.eventAt x onProgress worker).toList)
      (p.step x onProgress worker) :=
  step_induction (P := Books onProgress items) past (fun _ _ _ books => books.perm)
    (fun _ _ _ _ books => books.advance furnished closing) books worker

/-- A run of a pass, under every order of the workers' steps. -/
theorem Books.run (furnished : Furnished registry items)
    (closing : x.MildFor items)
    (books : Books onProgress items past p) (order : List Nat) :
    Books onProgress items (past ++ history x onProgress order p) (p.run x onProgress order) :=
  run_induction (P := Books onProgress items) past (fun _ _ _ books => books.perm)
    (fun _ _ _ _ books => books.advance furnished closing) books order

/-- The ledger of a pass whose callback raises nothing. -/
structure Invariant (items : List Item) (past : List PassEvent) (p : Pass) : Prop where
  ledger : Ledger items past (p.workers.filterMap Worker.place?)
    (p.workers.filterMap Worker.result?) (p.workers.filterMap Worker.session?) p
  stopped : ∀ failed, .stopped failed ∈ p.workers → failed = none ∧ p.cursor.next = items.length
  opens : ∀ k session, .opened k session ∈ p.workers → ∀ item, items[k]? = some item →
    item.content ≠ none

theorem Invariant.books (inv : Invariant items past p) : Books onProgress items past p :=
  ⟨inv.ledger.toStock, fun _ => inv.ledger.toTally, fun failed mem =>
    .inl (inv.stopped failed mem), inv.opens⟩

/-- So it is as long as no worker was stopped by a failure. -/
theorem Books.invariant_of_unbroken (books : Books onProgress items past p)
    (unbroken : ∀ failed, .stopped failed ∈ p.workers → failed = none) :
    Invariant items past p := by
  refine ⟨⟨books.stock, books.tally unbroken⟩, fun failed mem => ?_, books.opens⟩
  obtain rfl := unbroken failed mem
  rcases books.stopped none mem with quit | ⟨f, k, raised, -⟩
  · exact quit
  · cases raised

theorem Books.invariant (silent : ∀ a b, onProgress a b = none)
    (books : Books onProgress items past p) : Invariant items past p := by
  refine books.invariant_of_unbroken fun failed mem => ?_
  rcases books.stopped failed mem with quit | ⟨f, k, -, raised⟩
  · exact quit.1
  · rw [silent] at raised
    cases raised

/-- A run under a callback that raises nothing. -/
theorem Invariant.run (furnished : Furnished registry items)
    (closing : x.MildFor items)
    (silent : ∀ a b, onProgress a b = none) (inv : Invariant items past p) (order : List Nat) :
    Invariant items (past ++ history x onProgress order p) (p.run x onProgress order) :=
  (inv.books.run furnished closing order).invariant silent

/-! ### The whole pass -/

/-- A pass at its start. -/
def start (registry : Registry) (items : List Item) (n : Nat) : Pass where
  registry := registry
  items := items
  cursor := ⟨items.length, 0⟩
  workers := List.replicate n .idle
  reports := [(0, items.length)]

theorem invariant_start (furnished : Furnished registry items) (n : Nat) :
    Invariant items [] (start registry items n) where
  ledger := by
    have idle {α : Type} (f : Worker → Option α) (hnone : f .idle = none) :
        (List.replicate n Worker.idle).filterMap f = [] := by simp [hnone]
    rw [start, idle Worker.place? rfl, idle Worker.result? rfl, idle Worker.session? rfl]
    exact ⟨⟨rfl, Nat.zero_le _, rfl, rfl, .refl _, fun _ _ => rfl, by simp [done, extractions],
      furnished.holds⟩, ⟨.refl _, rfl, rfl, rfl, rfl⟩⟩
  stopped failed mem := by
    cases List.eq_of_mem_replicate mem
  opens k session mem := by
    cases List.eq_of_mem_replicate mem

variable (x onProgress registry items) in
theorem workers_run (n : Nat) (order : List Nat) :
    ((start registry items n).run x onProgress order).workers.length = n := by
  rw [length_run, start, List.length_replicate]

/-- What holds of a pass at its start holds at every later moment. -/
theorem books_run (furnished : Furnished registry items) (closing : x.MildFor items) (n : Nat)
    (order : List Nat) :
    Books onProgress items (history x onProgress order (start registry items n))
      ((start registry items n).run x onProgress order) := by
  have first : Books onProgress items [] (start registry items n) :=
    (invariant_start furnished n).books
  simpa using first.run furnished closing order

/-- Workers that get enough turns stop. -/
theorem stopped_of_enough (n : Nat) (order : List Nat)
    (enough : ∀ worker < n, 4 * items.length + 1 ≤ order.count worker) :
    ∀ w ∈ ((start registry items n).run x onProgress order).workers,
      ∃ failed, w = .stopped failed := by
  intro w mem
  obtain ⟨worker, hat⟩ := List.mem_iff_getElem?.1 mem
  obtain ⟨bound, -⟩ := List.getElem?_eq_some_iff.1 hat
  rw [length_run, start, List.length_replicate] at bound
  have idle : (start registry items n).workers[worker]? = some .idle :=
    List.getElem?_replicate_of_lt bound
  have turns : (start registry items n).turnsLeft .idle = 4 * items.length + 1 := by
    simp [start, turnsLeft, Worker.rank]
  obtain ⟨failed, stopped⟩ := stopped_run x onProgress order idle (turns ▸ enough worker bound)
  exact ⟨failed, Option.some.inj (hat.symm.trans stopped)⟩

/-- There are workers if there are items. -/
theorem working_run {W : Nat} (positive : 1 ≤ W) (order : List Nat) :
    ((start registry items (min W items.length)).run x onProgress order).workers ≠ [] ∨
      items = [] := by
  by_cases empty : items = []
  · exact .inr empty
  · refine .inl fun hnone => ?_
    have few := workers_run x onProgress registry items (min W items.length) order
    have hsome : 0 < items.length := List.length_pos_iff.2 empty
    rw [hnone, List.length_nil] at few
    omega

/-- Workers that have stopped have nothing in hand. -/
theorem idle_of_stopped (quit : ∀ w ∈ p.workers, ∃ failed, w = .stopped failed) :
    p.workers.filterMap Worker.place? = [] ∧ p.workers.filterMap Worker.result? = [] ∧
      p.workers.filterMap Worker.session? = [] := by
  have idle {α : Type} (f : Worker → Option α) (hnone : ∀ failed, f (.stopped failed) = none) :
      p.workers.filterMap f = [] := by
    refine List.filterMap_eq_nil_iff.2 fun w mem => ?_
    obtain ⟨failed, rfl⟩ := quit w mem
    exact hnone failed
  exact ⟨idle _ fun _ => rfl, idle _ fun _ => rfl, idle _ fun _ => rfl⟩

/-- What all workers leave when they have stopped. -/
theorem Invariant.finished (inv : Invariant items past p)
    (quit : ∀ w ∈ p.workers, ∃ failed, w = .stopped failed) :
    p.workers.filterMap Worker.place? = [] ∧ p.workers.filterMap Worker.result? = [] ∧
      p.workers.filterMap Worker.session? = [] ∧ p.firstFailure = none := by
  obtain ⟨places, results, sessions⟩ := idle_of_stopped quit
  refine ⟨places, results, sessions, List.findSome?_eq_none_iff.2 fun w mem => ?_⟩
  obtain ⟨failed, rfl⟩ := quit w mem
  exact (inv.stopped failed mem).1

theorem less_whole (m n : Int) : (Quantity.whole m).less (.whole n) = decide (m < n) := by
  rw [Bool.eq_iff_iff]
  simp [Quantity.less, Quantity.compare?, Std.compare_eq_lt]

/-- A session has one worker at least. -/
theorem wanted_of_workersOf {config : Option Configuration} {given workers : Value}
    (whole : given = .null ∨ ∃ n, given.quantity? = some (.whole n))
    (found : workersOf config given = .ok workers) :
    ∃ W : Nat, 1 ≤ W ∧ workers.quantity? = some (.whole W) := by
  unfold workersOf at found
  dsimp only at found
  split at found
  · cases found
  · next v chosen =>
    obtain ⟨n, amount⟩ : ∃ n, v.quantity? = some (.whole n) := by
      split at chosen
      · next c =>
        cases number : (c.setting "enrichment" "workers" (.int defaultWorkers)).toInt with
        | error f => simp [number, Except.map] at chosen
        | ok n =>
          rw [number] at chosen
          exact ⟨n, Except.ok.inj chosen ▸ rfl⟩
      · exact ⟨defaultWorkers, Except.ok.inj chosen ▸ rfl⟩
      · next missing present =>
        obtain rfl := Except.ok.inj chosen
        refine whole.resolve_left fun null => ?_
        cases config with
        | none => exact present null rfl
        | some c => exact missing c null rfl
    simp only [amount, less_whole, decide_eq_true_eq] at found
    split at found
    · cases found
    · next enough =>
      obtain rfl := Except.ok.inj found
      exact ⟨n.toNat, by omega, by rw [amount, Int.toNat_of_nonneg (by omega)]⟩

/-- There are no more workers than items. -/
theorem quantity?_poolWidth {workers : Value} {W : Nat}
    (wanted : workers.quantity? = some (.whole W)) (N : Nat) :
    (poolWidth workers N).quantity? = some (.whole (min W N : Nat)) := by
  rw [poolWidth, wanted]
  dsimp only
  rw [less_whole]
  by_cases narrow : N < W
  · rw [if_pos (by simpa using narrow), Nat.min_eq_right (Nat.le_of_lt narrow)]
    rfl
  · rw [if_neg (by simpa using narrow), wanted, Nat.min_eq_left (Nat.le_of_not_lt narrow)]

variable (x registry items) in
/-- The workers of a pass run from its start, unless its first report is refused. What is written
before is no news of items. -/
theorem runPass_of_begun (workers : Value) {W : Nat}
    (wanted : workers.quantity? = some (.whole W)) (begun : onProgress 0 items.length = none)
    (elapsed : Binary64) (order : Nat → Nat → List Nat) :
    ∃ started, (∀ note ∈ started, note.source = .main) ∧
      runPass x workers onProgress elapsed registry items order =
        endPass ((start registry items (min W items.length)).run x onProgress
          (order (min W items.length) items.length)) elapsed started := by
  by_cases empty : items.length = 0
  · refine ⟨[], by simp, ?_⟩
    rw [run_of_no_workers _ (by simp [start, empty])]
    rw [empty] at begun
    simp [runPass, begun, empty, start]
  · refine ⟨[passStarted items.length (poolWidth workers items.length)], ?_, ?_⟩
    · intro note mem
      rw [List.mem_singleton.1 mem]
      rfl
    · simp only [runPass, begun, empty, if_false, quantity?_poolWidth wanted, Int.toNat_natCast]
      rfl

variable (x registry items) in
/-- So it is if the callback raises nothing. -/
theorem runPass_eq (silent : ∀ a b, onProgress a b = none) (W : Nat)
    (elapsed : Binary64) (order : List Nat) :
    ∃ started, runPass x (.int W) onProgress elapsed registry items (fun _ _ => order) =
      endPass ((start registry items (min W items.length)).run x onProgress order) elapsed
        started := by
  obtain ⟨started, -, ended⟩ := runPass_of_begun x registry items (.int W) rfl
    (silent 0 items.length) elapsed fun _ _ => order
  exact ⟨started, ended⟩

/-- A pass without failures and leftovers ends with its counts. -/
theorem endPass_of_released (p : Pass) (elapsed : Binary64) (started : List Record)
    (hnone : p.firstFailure = none)
    (released : p.registry.assertReleased [Registry.contentKind, Registry.decodeKind] = .ok ()) :
    (endPass p elapsed started).reports = p.reports ∧
      (endPass p elapsed started).result =
        .ok ⟨p.items.length, p.completed, p.timedOut, p.failed⟩ := by
  simp [endPass, hnone, released]

/-- When all workers have stopped, every place was claimed and its item extracted, and all
results were counted. -/
theorem Invariant.complete (inv : Invariant items past p) (working : p.workers ≠ [] ∨ items = [])
    (quit : ∀ w ∈ p.workers, ∃ failed, w = .stopped failed) :
    p.cursor.next = items.length ∧ (done past).Perm (List.range items.length) ∧
      p.completed = items.length ∧
      p.timedOut = ((extractions past).map (·.2)).countP (·.outcome = .timeout) ∧
      p.failed = ((extractions past).map (·.2)).countP (·.outcome = .error) ∧
      p.registry.assertReleased [Registry.contentKind, Registry.decodeKind] = .ok () := by
  have ledger := inv.ledger
  obtain ⟨busy, pending, sessions, -⟩ := inv.finished quit
  rw [busy, pending, sessions] at ledger
  have all : p.cursor.next = items.length := by
    -- A worker only stops when it finds nothing left to claim.
    rcases working with working | rfl
    · obtain ⟨w, mem⟩ := List.exists_mem_of_ne_nil _ working
      obtain ⟨failed, rfl⟩ := quit w mem
      exact (inv.stopped failed mem).2
    · exact Nat.le_zero.1 ledger.next_le
  have places : (done past).Perm (List.range items.length) := by
    simpa [all] using ledger.places
  have results : (counted past).Perm ((extractions past).map (·.2)) := by
    simpa using ledger.results
  refine ⟨all, places, ?_, ?_, ?_, ledger.holds.assertReleased fun k item hat => ?_⟩
  · calc p.completed = (counted past).length := ledger.completed
      _ = (done past).length := by rw [results.length_eq, done, List.length_map, List.length_map]
      _ = items.length := by rw [places.length_eq, List.length_range]
  · rw [ledger.timedOut, results.countP_eq]
  · rw [ledger.failed, results.countP_eq]
  · obtain ⟨bound, -⟩ := List.getElem?_eq_some_iff.1 hat
    exact places.mem_iff.2 (List.mem_range.2 bound)

/-- For every order in which the workers take their steps. At every moment: the places are
claimed in turn and extracted once at most, the reports count up, there are no more decode
sessions than workers, an item that is not claimed holds its handle, and one that was extracted
holds none. When all workers have stopped, every item was extracted once, and the pass ends with
the counts of the results. All workers stop when each has had four turns for every item and one
more. -/
theorem extracts_each_once (x : Extractor) (registry : Registry) (items : List Item)
    (onProgress : Nat → Nat → Option Failure) (leased : Leased registry items)
    (closing : ∀ path shut f, (x.backend path shut).closing = some f → f.isSystem = true)
    (silent : ∀ a b, onProgress a b = none) (W : Nat) (positive : 1 ≤ W) (elapsed : Binary64) :
    let N := items.length
    let before := start registry items (min W N)
    (∀ order,
      let p := before.run x onProgress order
      let past := history x onProgress order before
      claims past = List.range p.cursor.next ∧ (done past).Nodup ∧
      (∀ k ∈ done past, k ∈ claims past) ∧
      p.reports = (List.range (p.completed + 1)).map (fun k => (k, N)) ∧
      p.registry.outstanding (some Registry.decodeKind) ≤ min W N ∧
      (∀ k item, k ∉ claims past → items[k]? = some item →
        p.items[k]? = some item ∧ ∃ h ∈ p.registry.registered, item.content = some h.id ∧
          h.kind = Registry.contentKind ∧ h.id ∉ p.registry.closings) ∧
      (∀ k ∈ done past, ∀ item, p.items[k]? = some item → item.content = none)) ∧
    (∀ order,
      let p := before.run x onProgress order
      let past := history x onProgress order before
      let results := (extractions past).map (·.2)
      let e := runPass x (.int W) onProgress elapsed registry items fun _ _ => order
      (∀ w ∈ p.workers, ∃ failed, w = .stopped failed) →
      claims past = List.range N ∧ (done past).Perm (List.range N) ∧
      e.reports = (List.range (N + 1)).map (fun k => (k, N)) ∧
      e.result = .ok ⟨N, N, results.countP (·.outcome = .timeout),
        results.countP (·.outcome = .error)⟩) ∧
    (∀ order, (∀ worker < min W N, 4 * N + 1 ≤ order.count worker) →
      ∀ w ∈ (before.run x onProgress order).workers, ∃ failed, w = .stopped failed) := by
  intro N before
  have inv (order : List Nat) : Invariant items (history x onProgress order before)
      (before.run x onProgress order) := by
    simpa using (invariant_start leased.furnished (min W N)).run leased.furnished
      (Extractor.mildFor_of_mild closing items) silent order
  have workers (order : List Nat) : (before.run x onProgress order).workers.length = min W N :=
    workers_run x onProgress registry items (min W N) order
  refine ⟨fun order => ?_, fun order => ?_, fun order enough w mem => ?_⟩
  · intro p past
    have ledger := (inv order).ledger
    have nodup : (done past ++ p.workers.filterMap Worker.place?).Nodup :=
      ledger.places.nodup_iff.2 List.nodup_range
    have claimed : ∀ k ∈ done past, k ∈ claims past := by
      intro k mem
      rw [ledger.claims]
      exact ledger.places.mem_iff.1 (List.mem_append_left _ mem)
    refine ⟨ledger.claims, (List.nodup_append.1 nodup).1, claimed, ledger.reports, ?_,
      fun k item out hat => ?_, ledger.emptied⟩
    · refine Nat.le_trans ledger.holds.outstanding_le ?_
      exact Nat.le_trans (List.length_filterMap_le _ _) (Nat.le_of_eq (workers order))
    · have left : k ∉ done past := fun mem => out (claimed k mem)
      obtain ⟨lease, -, held, -⟩ := leased.lease item (List.mem_of_getElem? hat)
      obtain ⟨h, registered, same, kind, -⟩ := ledger.holds.lease k item lease.id hat left held
      exact ⟨(ledger.left k left).trans hat, h, registered, held.trans (congrArg some same.symm),
        kind, ledger.holds.sound.not_closed h registered⟩
  · intro p past results e quit
    have working : p.workers ≠ [] ∨ items = [] := working_run positive order
    obtain ⟨all, places, completed, timedOut, failed, released⟩ :=
      (inv order).complete working quit
    have ledger := (inv order).ledger
    obtain ⟨started, ended⟩ := runPass_eq x registry items silent W elapsed order
    obtain ⟨reports, result⟩ := endPass_of_released p elapsed started
      ((inv order).finished quit).2.2.2 released
    have claimed : claims past = List.range N :=
      ledger.claims.trans (congrArg List.range all)
    refine ⟨claimed, places, ?_, ?_⟩
    · rw [show e = endPass p elapsed started from ended, reports, ledger.reports, completed]
    · rw [show e = endPass p elapsed started from ended, result, ledger.length, completed, timedOut,
        failed]
  · exact stopped_of_enough _ order enough w mem

/-- Two clips with a handle each, and a stream. -/
def twoLeases : Registry :=
  ⟨3, [⟨1, "content", none⟩, ⟨2, "playback", none⟩, ⟨3, "content", none⟩], []⟩

def twoClips : List Item :=
  [Extractor.clip, { Extractor.clip with relativePath := "b.mp4", content := some 3 }]

theorem leased_twoClips : Leased twoLeases twoClips where
  sound := ⟨by decide, by decide, by decide, by decide, by decide⟩
  apart := by decide
  lease := by simp [twoClips, twoLeases, Extractor.clip, Registry.contentKind, Handle.Mild]
  owned := by simp [twoClips, twoLeases, Extractor.clip, Registry.contentKind]
  quiet := by simp [twoLeases, Registry.decodeKind]

/-- Two workers take turns, although all sessions hang and are closed badly. -/
theorem extracts_each_once_in_turn :
    let order := (List.replicate 9 [0, 1]).flatten
    ∃ stats, (runPass Extractor.hanging (.int 2) (fun _ _ => none) .zero twoLeases twoClips
        fun _ _ => order).result = .ok stats ∧
      stats.total = 2 ∧ stats.completed = 2 := by
  obtain ⟨-, complete, fair⟩ := extracts_each_once Extractor.hanging twoLeases twoClips
    (fun _ _ => none) leased_twoClips
    (fun path shut f raised => Option.some.inj raised ▸ rfl) (fun _ _ => rfl) 2 (by decide) .zero
  obtain ⟨-, -, -, result⟩ := complete (List.replicate 9 [0, 1]).flatten (fair _ (by decide))
  exact ⟨_, result, rfl, rfl⟩

end VideoCatalog.Pass
