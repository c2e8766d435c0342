import VideoCatalog.Proofs.Enrichment.Forecast
import VideoCatalog.Proofs.Enrichment.Jams

/-!
# Passes do not depend on the schedule

Every extraction of a pass comes to what is forecast for its item. So two passes over the same
catalog differ only in the order of what they open and write, however many workers there are and in
whatever order they go on.

* `Extractor.Punctual`: deadlines that only pass when the decode path is blocked.
* `Pass.Foretold`: what a pass has done so far is what is forecast; `Foretold.advance` is one turn of
  a worker and `Foretold.run` a whole run.
* `Pass.quiet_of_ok`: a pass that ends with statistics has a callback that raised nothing.
* `Pass.Ends`, `Pass.ends_of_ok`: what such a pass ends with.
* `Pass.schedules_agree`: two passes.
-/

namespace VideoCatalog

namespace Extractor

open Race

variable {x y : Extractor} {registry : Registry} {item : Item} {items : List Item} {id : Nat}
  {e : Extracted}

/-- Whether the deadline of an item only passes when its decode path is blocked. -/
def Punctual (x : Extractor) (items : List Item) : Prop :=
  ∀ item ∈ items, ∀ registry session, registry.isClosed session = false →
    Race.Punctual x.encoder x.settings (x.backend item.source false)
      (x.backend item.source false).turns
      { registry := registry, item := item, session := some session }

/-- An item for which no session can be opened comes to what is forecast. -/
theorem openItem_meets (stake : Stake registry none id) (held : item.content = some id)
    (ended : x.openItem registry item = .inl e) : Meets (x.forecast item) item e := by
  obtain ⟨lease, registered, rfl, -⟩ := stake.content
  have decoding := decoding_open x stake held
  cases opening : (x.backend item.source false).opening with
  | error why =>
    rw [openItem, begin_of_refused held (decoding ▸ opening)] at ended
    obtain rfl := Sum.inl.inj ended
    exact refused_meets stake held opening
  | ok _ =>
    rw [openItem, begin_of_opened held (decoding ▸ opening)] at ended
    cases ended

theorem Alike.mildFor_iff (alike : x.Alike y) (items : List Item) :
    x.MildFor items ↔ y.MildFor items := by
  refine forall₃_congr fun item _ _ => ?_
  obtain ⟨turns, same⟩ := alike.backend item.source false
  rw [same]

end Extractor

namespace Pass

open Extractor

variable {x y : Extractor} {onProgress : Nat → Nat → Option Failure} {registry : Registry}
  {items : List Item} {past : List PassEvent} {p : Pass}

/-- What holds of the results, the items and the records if every extraction comes to what is
forecast for its item. -/
structure Foretold (x : Extractor) (items : List Item) (past : List PassEvent) (p : Pass) :
    Prop where
  results : extractions past = (done past).filterMap fun k =>
    items[k]?.map fun item => (k, (x.forecast item).result item)
  left : ∀ k ∈ done past, ∀ item, items[k]? = some item →
    p.items[k]? = some ((x.forecast item).leave item)
  opened : p.opened = (done past).flatMap fun k => (items[k]?.map Extractor.opens).getD []
  log : Record.aboutItems p.log = (done past).flatMap fun k =>
    (items[k]?.map fun item => (x.forecast item).notes).getD []
  opens : ∀ k s, .opened k s ∈ p.workers → ∀ item, items[k]? = some item →
    (x.backend item.source false).opening = .ok ()

theorem Foretold.perm (foretold : Foretold x items past p) {ws : List Worker}
    (same : p.workers.Perm ws) : Foretold x items past { p with workers := ws } :=
  { foretold with opens := fun k s mem => foretold.opens k s (same.mem_iff.2 mem) }

/-- An extraction that comes to what is forecast. -/
theorem Foretold.extract (foretold : Foretold x items past p) {w : Worker} {rest : List Worker}
    (workers : p.workers.Perm (w :: rest)) {k : Nat} {item before : Item} {e : Extracted}
    (hat : items[k]? = some item) (there : p.items[k]? = some before)
    (meets : Meets (x.forecast item) item e) :
    Foretold x items (past ++ [.extract k ((x.forecast item).result item)])
      { p with
        registry := e.registry, items := p.items.set k e.item, log := p.log ++ e.log
        opened := p.opened ++ e.opened, commands := p.commands ++ e.commands
        workers := .extracted ((x.forecast item).result item) :: rest } where
  results := by
    simp [PassEvent.extracted?, foretold.results, hat]
  left j mem other there' := by
    simp only [done_concat, PassEvent.extracted?, Option.map_some, Option.toList_some,
      List.mem_append, List.mem_singleton] at mem
    by_cases same : k = j
    · subst same
      obtain rfl : item = other := Option.some.inj (hat.symm.trans there')
      rw [← meets.left]
      exact List.getElem?_set_self (List.getElem?_eq_some_iff.1 there).1
    · dsimp only
      rw [List.getElem?_set_ne same]
      exact foretold.left j (mem.resolve_right (Ne.symm same)) other there'
  opened := by
    simp [PassEvent.extracted?, foretold.opened, meets.opened, hat]
  log := by
    simp [PassEvent.extracted?, foretold.log, meets.log, hat]
  opens j s mem := by
    rcases List.mem_cons.1 mem with h | mem
    · cases h
    · exact foretold.opens j s (workers.mem_iff.2 (List.mem_cons_of_mem _ mem))

/-- Only extractions change what is forecast. -/
theorem Foretold.other (foretold : Foretold x items past p) {event : Option PassEvent}
    (no_extraction : ∀ e ∈ event, e.extracted? = none) {q : Pass}
    (same : q.items = p.items ∧ q.opened = p.opened ∧ q.log = p.log)
    (opens : ∀ k s, .opened k s ∈ q.workers → ∀ item, items[k]? = some item →
      (x.backend item.source false).opening = .ok ()) :
    Foretold x items (past ++ event.toList) q := by
  obtain ⟨hi, ho, hl⟩ := same
  have still : extractions (past ++ event.toList) = extractions past := by
    cases event with
    | none => simp
    | some e => simp [no_extraction e rfl]
  have still' : done (past ++ event.toList) = done past := by rw [done, still, done]
  constructor
  · rw [still, still', foretold.results]
  · rw [still', hi]
    exact foretold.left
  · rw [still', ho, foretold.opened]
  · rw [still', hl, foretold.log]
  · exact opens

section Turn

variable {w : Worker} {rest : List Worker}

/-- A worker that opens nothing adds no session. -/
theorem Foretold.opens_rest (foretold : Foretold x items past p)
    (workers : p.workers.Perm (w :: rest)) {v : Worker} (shut : ∀ k s, v ≠ .opened k s)
    (k s : Nat) (mem : .opened k s ∈ v :: rest) :
    ∀ item, items[k]? = some item → (x.backend item.source false).opening = .ok () :=
  foretold.opens k s (workers.mem_iff.2
    (List.mem_cons_of_mem _ (List.mem_of_ne_of_mem (shut k s).symm mem)))

/-- A worker that has claimed an item opens a session, or the extraction is over at once. -/
theorem Foretold.open (books : Books onProgress items past p) (foretold : Foretold x items past p)
    {k : Nat} (workers : p.workers.Perm (.claimed k :: rest)) :
    Foretold x items (past ++ p.news x onProgress (.claimed k))
      (p.turn x onProgress (.claimed k) rest) := by
  have stock := books.stock_perm workers
  obtain ⟨out, item, hat, there⟩ := Stock.there stock
  have atOnce {e : Extracted} (ended : x.openItem p.registry item = .inl e)
      (meets : Meets (x.forecast item) item e) :
      Foretold x items (past ++ p.news x onProgress (.claimed k))
        (p.turn x onProgress (.claimed k) rest) := by
    simp only [turn, news, Pass.advance, there, ended, absorb_of_ok meets.result, Worker.event,
      Option.toList_some]
    exact foretold.extract workers hat there meets
  cases held : item.content with
  | none => exact atOnce (openItem_vacant x p.registry held) (vacant_meets x held)
  | some id =>
    have stake := Holds.stake none stock.holds hat out held
    rcases Extractor.openItem_spec (x := x) stake held with ⟨e, ended, -⟩ | ⟨ok, opened⟩
    · exact atOnce ended (openItem_meets stake held ended)
    · simp only [turn, news, Pass.advance, there, opened]
      refine foretold.other (by simp [Worker.event]) ⟨rfl, rfl, rfl⟩ fun j s mem other at_j => ?_
      rcases List.mem_cons.1 mem with same | mem
      · cases same
        obtain rfl : item = other := Option.some.inj (hat.symm.trans at_j)
        exact ok
      · exact foretold.opens j s (workers.mem_iff.2 (List.mem_cons_of_mem _ mem)) other at_j

/-- A worker with an open session ends the extraction. -/
theorem Foretold.finish (punctual : x.Punctual items) (books : Books onProgress items past p)
    (foretold : Foretold x items past p) {k session : Nat}
    (workers : p.workers.Perm (.opened k session :: rest)) :
    Foretold x items (past ++ p.news x onProgress (.opened k session))
      (p.turn x onProgress (.opened k session) rest) := by
  have stock := books.stock_perm workers
  have own : .opened k session ∈ p.workers := workers.mem_iff.2 List.mem_cons_self
  obtain ⟨out, item, hat, there⟩ := Stock.there stock
  obtain ⟨id, held⟩ := Option.ne_none_iff_exists'.1 (books.opens k session own item hat)
  have stake := Holds.stake (some session) stock.holds hat out held
  obtain ⟨-, g, registered, rfl, -⟩ := stake.decoding session rfl
  have hopen : p.registry.isClosed g.id = false := by
    simpa [Registry.isClosed] using stake.sound.not_closed g registered
  have meets := finishItem_meets stake held (foretold.opens k g.id own item hat)
    (punctual item (List.mem_of_getElem? hat) p.registry g.id hopen)
  simp only [turn, news, Pass.advance, there, decoding_open x stake held,
    absorb_of_ok meets.result, Worker.event, Option.toList_some]
  exact foretold.extract workers hat there meets

/-- One turn of a worker. -/
theorem Foretold.advance (punctual : x.Punctual items) (books : Books onProgress items past p)
    (foretold : Foretold x items past p) (workers : p.workers.Perm (w :: rest)) :
    Foretold x items (past ++ p.news x onProgress w) (p.turn x onProgress w rest) := by
  cases w with
  | idle =>
    simp only [turn, news, Pass.advance, ClaimCursor.claim]
    split
    · exact foretold.other (by simp [Worker.event, PassEvent.extracted?]) ⟨rfl, rfl, rfl⟩
        (foretold.opens_rest workers (by simp))
    · exact foretold.other (by simp [Worker.event]) ⟨rfl, rfl, rfl⟩
        (foretold.opens_rest workers (by simp))
  | claimed k => exact foretold.open books workers
  | opened k session => exact foretold.finish punctual books workers
  | extracted result =>
    simp only [turn, news, Pass.advance, record]
    split <;> exact foretold.other (by simp [Worker.event, PassEvent.extracted?])
      ⟨rfl, rfl, rfl⟩ (foretold.opens_rest workers (by simp))
  | stopped failed =>
    simp only [turn, news, Pass.advance]
    exact foretold.other (by simp [Worker.event]) ⟨rfl, rfl, rfl⟩
      (foretold.opens_rest workers (by simp))

end Turn

/-- A run of a pass, under every order of the workers' steps. -/
theorem Foretold.run (furnished : Furnished registry items) (closing : x.MildFor items)
    (punctual : x.Punctual items) (books : Books onProgress items past p)
    (foretold : Foretold x items past p) (order : List Nat) :
    Foretold x items (past ++ history x onProgress order p) (p.run x onProgress order) := by
  refine (run_induction
    (P := fun past p => Books onProgress items past p ∧ Foretold x items past p) past
    (fun _ _ _ kept same => ⟨kept.1.perm same, kept.2.perm same⟩)
    (fun _ _ _ _ kept workers => ⟨kept.1.advance furnished closing workers, ?_⟩)
    ⟨books, foretold⟩ order).2
  exact kept.2.advance punctual kept.1 workers

theorem foretold_start (x : Extractor) (registry : Registry) (items : List Item) (n : Nat) :
    Foretold x items [] (start registry items n) where
  results := rfl
  left k mem := by cases mem
  opened := rfl
  log := rfl
  opens k s mem := by cases List.eq_of_mem_replicate mem

/-! ### Callbacks that raise nothing when they are called -/

/-- A worker that has still to count its result leaves room for one more. -/
theorem Invariant.room (inv : Invariant items past p) {result : ExtractionResult}
    (mem : .extracted result ∈ p.workers) : p.completed + 1 ≤ items.length := by
  have ledger := inv.ledger
  have pending : result ∈ p.workers.filterMap Worker.result? :=
    List.mem_filterMap.2 ⟨_, mem, rfl⟩
  have one := List.length_pos_of_mem pending
  have results := ledger.results.length_eq
  have places := ledger.places.length_eq
  have next := ledger.next_le
  rw [List.length_append] at results places
  rw [List.length_map] at results
  rw [List.length_range, done, List.length_map] at places
  rw [ledger.completed]
  omega

/-- The steps of a pass are those under a callback that raises nothing, if its own raises nothing
up to the number of the items. -/
theorem step_hushed (quiet : ∀ k ≤ items.length, onProgress k items.length = none)
    (inv : Invariant items past p) (worker : Nat) :
    p.step x onProgress worker = p.step x (fun _ _ => none) worker ∧
      p.eventAt x onProgress worker = p.eventAt x (fun _ _ => none) worker := by
  cases hat : p.workers[worker]? with
  | none => simp [step_of_no_worker hat, eventAt, hat]
  | some w =>
    have same : p.advance x onProgress w = p.advance x (fun _ _ => none) w := by
      cases w with
      | extracted result =>
        have room := inv.room (List.mem_of_getElem? hat)
        have silent := quiet _ room
        rw [← inv.ledger.length] at silent
        simp [advance, record, silent]
      | idle | claimed _ | opened _ _ | stopped _ => rfl
    rw [step_of_worker hat, step_of_worker hat, eventAt, eventAt, hat]
    simp only [same, Option.bind_some, and_self]

theorem Invariant.run_of_quiet (furnished : Furnished registry items) (closing : x.MildFor items)
    (quiet : ∀ k ≤ items.length, onProgress k items.length = none) (inv : Invariant items past p)
    (order : List Nat) :
    Invariant items (past ++ history x onProgress order p) (p.run x onProgress order) := by
  induction order generalizing past p with
  | nil => simpa [history] using inv
  | cons worker order ih =>
    obtain ⟨same, event⟩ := step_hushed (x := x) quiet inv worker
    have next : Invariant items (past ++ (p.eventAt x (fun _ _ => none) worker).toList)
        (p.step x (fun _ _ => none) worker) :=
      (inv.books.step furnished closing worker).invariant fun _ _ => rfl
    rw [run_cons, history, ← List.append_assoc, same, event]
    exact ih next

/-- Whether no worker was stopped by a failure. -/
def Unbroken (p : Pass) : Prop := ∀ failed, .stopped failed ∈ p.workers → failed = none

/-- As long as no worker was stopped, the callback has raised nothing. -/
def Answered (onProgress : Nat → Nat → Option Failure) (n : Nat) (p : Pass) : Prop :=
  p.items.length = n ∧ (p.Unbroken → ∀ k ≤ p.completed, onProgress k n = none)

theorem Answered.perm {n : Nat} (answered : Answered onProgress n p) {ws : List Worker}
    (same : p.workers.Perm ws) : Answered onProgress n { p with workers := ws } :=
  ⟨answered.1, fun unbroken => answered.2 fun failed mem => unbroken failed (same.mem_iff.1 mem)⟩

theorem completed_absorb (p : Pass) (k : Nat) (e : Extracted) :
    (p.absorb k e).1.completed = p.completed ∧
      (p.absorb k e).1.items.length = p.items.length := by
  refine ⟨?_, by simp [(registry_absorb p k e).2]⟩
  unfold absorb
  dsimp only
  split <;> rfl

/-- One turn of a worker. -/
theorem Answered.advance {n : Nat} {w : Worker} {rest : List Worker}
    (answered : Answered onProgress n { p with workers := w :: rest }) :
    Answered onProgress n (p.turn x onProgress w rest) := by
  obtain ⟨length, said⟩ := answered
  have still {q : Pass} {w' : Worker} (same : q.completed = p.completed ∧
      q.items.length = p.items.length) (going : ∀ failed, w ≠ .stopped failed) :
      Answered onProgress n { q with workers := w' :: rest } := by
    refine ⟨same.2.trans length, fun unbroken k le => said (fun failed mem => ?_) k (same.1 ▸ le)⟩
    rcases List.mem_cons.1 mem with own | mem
    · exact absurd own.symm (going failed)
    · exact unbroken failed (List.mem_cons_of_mem _ mem)
  cases w with
  | idle =>
    simp only [turn, Pass.advance]
    split <;> exact still ⟨rfl, rfl⟩ (by simp)
  | claimed k =>
    simp only [turn, Pass.advance]
    split
    · exact still ⟨rfl, rfl⟩ (by simp)
    · split
      · exact still (completed_absorb p k _) (by simp)
      · exact still ⟨rfl, rfl⟩ (by simp)
  | opened k session =>
    simp only [turn, Pass.advance]
    split
    · exact still ⟨rfl, rfl⟩ (by simp)
    · exact still (completed_absorb p k _) (by simp)
  | extracted result =>
    simp only [turn, Pass.advance, record]
    split
    · next f raised =>
      refine ⟨length, fun unbroken => ?_⟩
      cases unbroken (some f) List.mem_cons_self
    · next silent =>
      refine ⟨length, fun unbroken k le => ?_⟩
      rcases Nat.le_succ_iff.1 le with le | rfl
      · refine said (fun failed mem => ?_) k le
        have among := (List.mem_cons.1 mem).resolve_left (by simp)
        exact unbroken failed (List.mem_cons_of_mem _ among)
      · exact length ▸ silent
  | stopped failed => exact ⟨length, said⟩

theorem Answered.run {n : Nat} (answered : Answered onProgress n p) (order : List Nat) :
    Answered onProgress n (p.run x onProgress order) :=
  run_induction (P := fun _ => Answered onProgress n) []
    (fun _ _ _ answered => answered.perm)
    (fun _ _ _ _ answered workers => (answered.perm workers).advance) answered order

/-- A pass that ends with statistics when all its workers have stopped has reported every item, and
its callback has raised nothing. -/
theorem quiet_of_ok (furnished : Furnished registry items) (closing : x.MildFor items) {W : Nat}
    (positive : 1 ≤ W) {elapsed : Binary64} {order : List Nat} {stats : PassStats}
    (quit : ∀ w ∈ ((start registry items (min W items.length)).run x onProgress order).workers,
      ∃ failed, w = .stopped failed)
    (ok : (runPass x (.int W) onProgress elapsed registry items fun _ _ => order).result =
      .ok stats) :
    ∀ k ≤ items.length, onProgress k items.length = none := by
  have begun := begun_of_ok ok
  obtain ⟨started, -, ended⟩ := runPass_of_begun x registry items (.int W) rfl begun
    elapsed fun _ _ => order
  rw [ended] at ok
  obtain ⟨p, hp⟩ : ∃ p, p = (start registry items (min W items.length)).run x onProgress order :=
    ⟨_, rfl⟩
  rw [← hp] at ok quit
  have unbroken : p.Unbroken := by
    intro failed mem
    exact List.findSome?_eq_none_iff.1 (clean_of_ok ok).1 _ mem
  have books : Books onProgress items
      (history x onProgress order (start registry items (min W items.length))) p :=
    hp ▸ books_run furnished closing _ order
  have inv := books.invariant_of_unbroken unbroken
  have completed := (inv.complete (hp ▸ working_run positive order) quit).2.2.1
  have answered : Answered onProgress items.length p := by
    rw [hp]
    refine Answered.run ⟨rfl, fun _ k le => ?_⟩ order
    obtain rfl : k = 0 := Nat.le_zero.1 le
    exact begun
  exact fun k le => answered.2 unbroken k (completed ▸ le)

/-! ### The end of a pass -/

/-- What a pass ends with if every extraction comes to what is forecast. -/
structure Ends (x : Extractor) (items : List Item) (past : List PassEvent) (e : PassEnd) :
    Prop where
  all : (done past).Perm (List.range items.length)
  results : extractions past = (done past).filterMap fun k =>
    items[k]?.map fun item => (k, (x.forecast item).result item)
  left : e.items = items.map fun item => (x.forecast item).leave item
  stats : e.result = .ok ⟨items.length, items.length,
    ((extractions past).map (·.2)).countP (·.outcome = .timeout),
    ((extractions past).map (·.2)).countP (·.outcome = .error)⟩
  reports : e.reports = (List.range (items.length + 1)).map fun k => (k, items.length)
  opened : e.opened = (done past).flatMap fun k => (items[k]?.map Extractor.opens).getD []
  log : Record.aboutItems e.log = (done past).flatMap fun k =>
    (items[k]?.map fun item => (x.forecast item).notes).getD []

/-- A pass without failures and leftovers, as a whole. -/
theorem endPass_eq (p : Pass) (elapsed : Binary64) (started : List Record)
    (hnone : p.firstFailure = none)
    (released : p.registry.assertReleased [Registry.contentKind, Registry.decodeKind] = .ok ()) :
    endPass p elapsed started =
      { registry := p.registry, items := p.items
        result := .ok ⟨p.items.length, p.completed, p.timedOut, p.failed⟩, reports := p.reports
        log := started ++ p.log ++
          [passFinished ⟨p.items.length, p.completed, p.timedOut, p.failed⟩ elapsed]
        opened := p.opened, commands := p.commands } := by
  simp only [endPass, hnone, released]

theorem aboutItems_of_main {log : List Record} (main : ∀ note ∈ log, note.source = .main) :
    Record.aboutItems log = [] := by
  refine List.filter_eq_nil_iff.2 fun note mem => ?_
  rw [main note mem]
  decide

/-- A pass ends with what is forecast if its callback and its sessions raise nothing that ends it
early. -/
theorem ends_of_quiet (furnished : Furnished registry items) (closing : x.MildFor items)
    (quiet : ∀ k ≤ items.length, onProgress k items.length = none) (punctual : x.Punctual items)
    {W : Nat} (positive : 1 ≤ W) (elapsed : Binary64) {order : List Nat}
    (quit : ∀ w ∈ ((start registry items (min W items.length)).run x onProgress order).workers,
      ∃ failed, w = .stopped failed) :
    Ends x items (history x onProgress order (start registry items (min W items.length)))
      (runPass x (.int W) onProgress elapsed registry items fun _ _ => order) := by
  obtain ⟨before, hb⟩ : ∃ p, p = start registry items (min W items.length) := ⟨_, rfl⟩
  obtain ⟨p, hp⟩ : ∃ p, p = before.run x onProgress order := ⟨_, rfl⟩
  obtain ⟨started, main, ended⟩ := runPass_of_begun x registry items (.int W) rfl
    (quiet 0 (Nat.zero_le _)) elapsed fun _ _ => order
  rw [← hb] at quit ended ⊢
  rw [← hp] at quit ended
  have first : Invariant items [] before := hb ▸ invariant_start furnished _
  have inv : Invariant items (history x onProgress order before) p := by
    simpa [hp] using first.run_of_quiet furnished closing quiet order
  have foretold : Foretold x items (history x onProgress order before) p := by
    have begun : Foretold x items [] before := hb ▸ foretold_start x registry items _
    have books : Books onProgress items [] before := first.books
    simpa [hp] using begun.run furnished closing punctual books order
  have working : p.workers ≠ [] ∨ items = [] := hp ▸ hb ▸ working_run positive order
  obtain ⟨-, places, completed, timedOut, failed, released⟩ := inv.complete working quit
  have whole := endPass_eq p elapsed started (inv.finished quit).2.2.2 released
  rw [← ended] at whole
  have length := inv.ledger.length
  have silent : Record.aboutItems started = [] := aboutItems_of_main main
  constructor
  · exact places
  · exact foretold.results
  · rw [whole]
    refine List.ext_getElem? fun k => ?_
    rw [List.getElem?_map]
    by_cases bound : k < items.length
    · rw [List.getElem?_eq_getElem bound]
      exact foretold.left k (places.mem_iff.2 (List.mem_range.2 bound)) _
        (List.getElem?_eq_getElem bound)
    · rw [List.getElem?_eq_none (Nat.le_of_not_lt bound)]
      exact List.getElem?_eq_none (length ▸ Nat.le_of_not_lt bound)
  · rw [whole]
    dsimp only
    rw [length, completed, timedOut, failed]
  · have reports := inv.ledger.reports
    rw [completed] at reports
    rw [whole]
    exact reports
  · rw [whole]
    exact foretold.opened
  · have last (stats : PassStats) : Record.aboutItems [passFinished stats elapsed] = [] := rfl
    rw [whole]
    simp only [Record.aboutItems_append, silent, foretold.log, last, List.nil_append,
      List.append_nil]

/-! ### Two passes -/

/-- A pass that ends with statistics ends with what is forecast. -/
theorem ends_of_ok (furnished : Furnished registry items) (punctual : x.Punctual items) {W : Nat}
    (positive : 1 ≤ W) {elapsed : Binary64} {order : List Nat} {stats : PassStats}
    (quit : ∀ w ∈ ((start registry items (min W items.length)).run x onProgress order).workers,
      ∃ failed, w = .stopped failed)
    (ok : (runPass x (.int W) onProgress elapsed registry items fun _ _ => order).result =
      .ok stats) :
    x.MildFor items ∧ (∀ k ≤ items.length, onProgress k items.length = none) ∧
      Ends x items (history x onProgress order (start registry items (min W items.length)))
        (runPass x (.int W) onProgress elapsed registry items fun _ _ => order) := by
  have mild := mildFor_of_ok furnished ok
  have quiet := quiet_of_ok furnished mild positive quit ok
  exact ⟨mild, quiet, ends_of_quiet furnished mild quiet punctual positive elapsed quit⟩

/-- Passes that come to the same forecasts differ in nothing but the order of what they do. -/
theorem Ends.agree {past past' : List PassEvent} {d e : PassEnd} (ends : Ends x items past d)
    (ends' : Ends y items past' e) (alike : x.Alike y) :
    d.result = e.result ∧ d.items = e.items ∧ (extractions past).Perm (extractions past') ∧
      d.reports = e.reports ∧ d.opened.Perm e.opened ∧
      (Record.aboutItems d.log).Perm (Record.aboutItems e.log) := by
  have same : y.forecast = x.forecast := funext (forecast_congr alike)
  have places : (done past).Perm (done past') := ends.all.trans ends'.all.symm
  have results : (extractions past).Perm (extractions past') := by
    rw [ends.results, ends'.results, same]
    exact places.filterMap _
  refine ⟨?_, ?_, results, ?_, ?_, ?_⟩
  · rw [ends.stats, ends'.stats, (results.map _).countP_eq, (results.map _).countP_eq]
  · rw [ends.left, ends'.left, same]
  · rw [ends.reports, ends'.reports]
  · rw [ends.opened, ends'.opened]
    exact places.flatMap_right _
  · rw [ends.log, ends'.log, same]
    exact places.flatMap_right _

/-- Take two extractors that differ in the turns of their races alone, and let the deadline of every
item pass only when its decode path is blocked. Take two passes over the same catalog, with any
numbers of workers and any orders of their steps, which go on until all workers have stopped. If one
of them ends with statistics then so does the other, and with the same ones; every item was
extracted once, with the same result, and shows the same; the reports are the same; and what was
opened and written about items differs in the order alone. They end with statistics if closing the
sessions raises nothing but refusals of the operating system and the callback raises nothing.

What is compared are passes that return. Two passes that raise have no statistics, and may leave
different items and reports: which items they have got to depends on the order of the steps. -/
theorem schedules_agree (x y : Extractor) (registry : Registry) (items : List Item)
    (onProgress : Nat → Nat → Option Failure) (furnished : Furnished registry items)
    (alike : x.Alike y) (punctual : x.Punctual items) (punctual' : y.Punctual items) (V W : Nat)
    (positive : 1 ≤ V) (positive' : 1 ≤ W) (elapsed elapsed' : Binary64) (order order' : List Nat)
    (quit : ∀ w ∈ ((start registry items (min V items.length)).run x onProgress order).workers,
      ∃ failed, w = .stopped failed)
    (quit' : ∀ w ∈ ((start registry items (min W items.length)).run y onProgress order').workers,
      ∃ failed, w = .stopped failed) :
    let N := items.length
    let past := history x onProgress order (start registry items (min V N))
    let past' := history y onProgress order' (start registry items (min W N))
    let d := runPass x (.int V) onProgress elapsed registry items fun _ _ => order
    let e := runPass y (.int W) onProgress elapsed' registry items fun _ _ => order'
    (∀ stats, d.result = .ok stats ↔ e.result = .ok stats) ∧
    (∀ stats, d.result = .ok stats →
      d.items = e.items ∧ (done past).Perm (List.range N) ∧
      (extractions past).Perm (extractions past') ∧ d.reports = e.reports ∧
      d.opened.Perm e.opened ∧ (Record.aboutItems d.log).Perm (Record.aboutItems e.log)) ∧
    (x.MildFor items → (∀ k ≤ N, onProgress k N = none) → ∃ stats, d.result = .ok stats) := by
  intro N past past' d e
  have mild_iff : x.MildFor items ↔ y.MildFor items := alike.mildFor_iff items
  refine ⟨fun stats => ⟨fun ok => ?_, fun ok => ?_⟩, fun stats ok => ?_, fun mild quiet => ?_⟩
  · obtain ⟨mild, quiet, ends⟩ := ends_of_ok furnished punctual positive quit ok
    have ends' := ends_of_quiet furnished (mild_iff.1 mild) quiet punctual' positive' elapsed' quit'
    exact (ends.agree ends' alike).1.symm.trans ok
  · obtain ⟨mild, quiet, ends'⟩ := ends_of_ok furnished punctual' positive' quit' ok
    have ends := ends_of_quiet furnished (mild_iff.2 mild) quiet punctual positive elapsed quit
    exact (ends.agree ends' alike).1.trans ok
  · obtain ⟨mild, quiet, ends⟩ := ends_of_ok furnished punctual positive quit ok
    have ends' := ends_of_quiet furnished (mild_iff.1 mild) quiet punctual' positive' elapsed' quit'
    obtain ⟨-, left, results, reports, opened, log⟩ := ends.agree ends' alike
    exact ⟨left, ends.all, results, reports, opened, log⟩
  · exact ⟨_, (ends_of_quiet furnished mild quiet punctual positive elapsed quit).stats⟩

/-- An extractor whose sessions for the clip hang, with some turns, and find no frame for other
files. -/
def uneven (turns : List Party) : Extractor where
  backend path _ :=
    if path = clip.source then
      { metadata := { result := .error (.decode .sessionClosed), blocks := true }
        seek := fun _ => { result := .ok () }
        capture := fun _ => { result := .error (.decode .sessionClosed) }
        turns := turns }
    else
      { metadata := { result := .ok .null }
        seek := fun _ => { result := .ok () }
        capture := fun _ => { result := .error (.decode .sessionClosed) }
        closing := some (.file .denied "other.mp4") }
  settings := ⟨.one, 640, 70⟩
  encoder := default

/-- The clip, another file, and a file whose content has been released. -/
def threeFiles : List Item :=
  [clip,
    { clip with relativePath := "other.mp4", source := ⟨"", ["other.mp4"]⟩, content := some 3 },
    { clip with relativePath := "gone.mp4", source := ⟨"", ["gone.mp4"]⟩, content := none }]

theorem furnished_threeFiles : Furnished twoLeases threeFiles where
  sound := leased_twoClips.sound
  apart := by decide
  lease := by simp [threeFiles, twoLeases, clip, Registry.contentKind, Handle.Mild]
  owned := by simp [threeFiles, twoLeases, clip, Registry.contentKind]
  quiet := by simp [twoLeases, Registry.decodeKind]

/-- The deadline passes while the metadata is read, and the decode path goes on during the
release. -/
def prompt : List Party := [.decode, .deadline, .deadline, .deadline, .decode]

theorem punctual_uneven (turns : List Party) (quick : turns = [] ∨ turns = prompt) :
    (uneven turns).Punctual threeFiles := by
  intro item among registry session hopen
  rcases List.mem_cons.1 among with rfl | other
  · -- The sessions for the clip are blocked until they are closed.
    rcases quick with rfl | rfl
    · exact trivial
    · simp [uneven, prompt, Race.Punctual, Race.step, Race.stepDecode, Race.stepDeadline,
        Race.sessionClosed, Stage.passes, hopen, Gate.decide]
  · have others : item.source ≠ clip.source := by
      rcases List.mem_cons.1 other with rfl | other
      · decide
      · obtain rfl := List.mem_singleton.1 other
        decide
    simp [uneven, others, Race.Punctual]

theorem alike_uneven (turns turns' : List Party) : (uneven turns).Alike (uneven turns') where
  settings := rfl
  encoder := rfl
  backend path shut := by
    by_cases hung : path = clip.source
    · exact ⟨turns', by simp [uneven, hung]⟩
    · exact ⟨[], by simp [uneven, hung]⟩

/-- One worker goes through the files in turn. Of two workers the second begins, and the first
overtakes it. -/
theorem schedules_agree_uneven :
    let d := runPass (uneven []) (.int 1) (fun _ _ => none) .zero twoLeases threeFiles
      fun _ _ => List.replicate 13 0
    let e := runPass (uneven prompt) (.int 2) (fun _ _ => none) .one twoLeases threeFiles
      fun _ _ => [1, 0, 0, 0, 0] ++ (List.replicate 13 [0, 1]).flatten
    d.result = .ok ⟨3, 3, 1, 2⟩ ∧ e.result = .ok ⟨3, 3, 1, 2⟩ ∧ d.items = e.items ∧
      d.opened.Perm e.opened ∧ d.opened ≠ e.opened := by
  have agree := schedules_agree (uneven []) (uneven prompt) twoLeases threeFiles (fun _ _ => none)
    furnished_threeFiles (alike_uneven _ _) (punctual_uneven _ (.inl rfl))
    (punctual_uneven _ (.inr rfl)) 1 2 (by decide) (by decide) .zero .one (List.replicate 13 0)
    ([1, 0, 0, 0, 0] ++ (List.replicate 13 [0, 1]).flatten)
    (stopped_of_enough _ _ (by decide)) (stopped_of_enough _ _ (by decide))
  intro d e
  have first : d.result = .ok ⟨3, 3, 1, 2⟩ := by decide +kernel
  obtain ⟨stats, same, -⟩ := agree
  obtain ⟨items, -, -, -, opened, -⟩ := same _ first
  exact ⟨first, (stats _).1 first, items, opened, by decide +kernel⟩

end Pass

end VideoCatalog
