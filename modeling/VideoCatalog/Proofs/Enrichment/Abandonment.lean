import VideoCatalog.Proofs.Enrichment.Schedules
import VideoCatalog.Proofs.Handles.History

/-!
# Passes whose callback raises

A callback that raises stops one worker between its report and its next claim, and the others go
on. Whatever it raises and when, the reports count up, what was claimed is extracted, and what was
not claimed keeps its content.

* `Pass.Books.work`: what a worker does with the item that it has in hand.
* `Pass.Reported`: the invariant: the reports follow the extractions, and the workers that the
  callback has stopped show what it raised; `Reported.run` says that every order of turns keeps it.
* `PassRun.extracted`: the places whose items were extracted.
* `PassRun.Account`: what a pass leaves, whatever its callback raises.
* `PassRun.callback_ends_pass`: every pass comes to this account, and the registry can be emptied.
-/

namespace VideoCatalog

namespace Pass

variable {x : Extractor} {onProgress : Nat → Nat → Option Failure} {registry : Registry}
  {items : List Item} {past past' : List PassEvent} {p : Pass} {base : Registry} {n : Nat}
  {w : Worker} {rest : List Worker}

/-! ### What a worker does with an item -/

/-- A worker with an item in hand opens a session, or ends the extraction with a result. Then some
handles are taken out. -/
theorem Books.work (books : Books onProgress items past p) (workers : p.workers.Perm (w :: rest))
    {k : Nat} (busy : w.place? = some k) :
    (∃ session closing, p.advance x onProgress w =
      ({ p with registry := (p.registry.acquire Registry.decodeKind closing).2 },
        .opened k session)) ∨
    ∃ e result ids, p.advance x onProgress w = p.absorb k e ∧ e.result = .ok result ∧
      e.registry = p.registry.without ids := by
  have stock := books.stock_perm workers
  cases w with
  | claimed place =>
    obtain rfl : place = k := Option.some.inj busy
    obtain ⟨out, item, hat, there⟩ := Stock.there stock
    have atOnce {e : Extracted} (ended : x.openItem p.registry item = .inl e) :
        p.advance x onProgress (.claimed place) = p.absorb place e := by
      simp only [Pass.advance, there, ended]
    cases held : item.content with
    | none =>
      have ended := Extractor.openItem_vacant x p.registry held
      exact .inr ⟨_, _, [], atOnce ended, rfl, p.registry.without_nil.symm⟩
    | some id =>
      have stake := Holds.stake none stock.holds hat out held
      rcases Extractor.openItem_spec (x := x) stake held with ⟨e, ended, cleared⟩ | ⟨-, opened⟩
      · obtain ⟨result, ok⟩ := cleared.result
        exact .inr ⟨e, result, [id], atOnce ended, ok, cleared.registry⟩
      · refine .inl ⟨p.registry.issued + 1, (x.backend item.source false).closing, ?_⟩
        simp only [Pass.advance, there, opened]
  | opened place session =>
    obtain rfl : place = k := Option.some.inj busy
    obtain ⟨out, item, hat, there⟩ := Stock.there stock
    obtain ⟨id, held⟩ := Option.ne_none_iff_exists'.1
      (books.opens place session (workers.mem_iff.2 List.mem_cons_self) item hat)
    have stake := Holds.stake (some session) stock.holds hat out held
    have cleared := Extractor.finishItem_spec x (x.decoding p.registry item) stake held
    obtain ⟨result, ok⟩ := cleared.result
    refine .inr ⟨_, result, [session, id], ?_, ok, cleared.registry⟩
    simp only [Pass.advance, there]
  | idle | extracted _ | stopped _ => cases busy

/-! ### The reports -/

/-- What holds of the reports of a pass. Every result is counted and reported, whether the callback
raises or not, and what it raises stops a worker. A handle that was registered at the start still is
or has been closed. -/
structure Reported (onProgress : Nat → Nat → Option Failure) (base : Registry) (n : Nat)
    (past : List PassEvent) (p : Pass) : Prop where
  length : p.items.length = n
  reports : p.reports = (List.range (p.completed + 1)).map fun k => (k, n)
  counted : p.completed + (p.workers.filterMap Worker.result?).length = (done past).length
  raised : ∀ k ≤ p.completed, ∀ f, onProgress k n = some f → .stopped (some f) ∈ p.workers
  cause : ∀ f, .stopped (some f) ∈ p.workers → ∃ k ≤ p.completed, onProgress k n = some f
  settled : ∀ h ∈ base.registered, h ∈ p.registry.registered ∨ h.id ∈ p.registry.closings

theorem Reported.perm (reported : Reported onProgress base n past p) {ws : List Worker}
    (same : p.workers.Perm ws) : Reported onProgress base n past { p with workers := ws } where
  length := reported.length
  reports := reported.reports
  counted := (same.filterMap _).length_eq ▸ reported.counted
  raised k le f said := same.mem_iff.1 (reported.raised k le f said)
  cause f mem := reported.cause f (same.mem_iff.2 mem)
  settled := reported.settled

/-- A turn without a report. -/
theorem Reported.quiet (reported : Reported onProgress base n past { p with workers := w :: rest })
    {q : Pass} {v : Worker} (workers : q.workers = v :: rest)
    (same : q.completed = p.completed ∧ q.reports = p.reports ∧ q.items.length = p.items.length)
    (going : ∀ f, w ≠ .stopped (some f)) (still : ∀ f, v ≠ .stopped (some f))
    (news : (done past').length + w.result?.toList.length =
      (done past).length + v.result?.toList.length)
    (settled : ∀ h ∈ base.registered, h ∈ q.registry.registered ∨ h.id ∈ q.registry.closings) :
    Reported onProgress base n past' q := by
  obtain ⟨completed, reports, length⟩ := same
  have pending (u : Worker) : ((u :: rest).filterMap Worker.result?).length =
      u.result?.toList.length + (rest.filterMap Worker.result?).length := by
    cases hu : u.result? <;> simp [hu, Nat.add_comm]
  refine ⟨length.trans reported.length, ?_, ?_, fun k le f said => ?_, fun f mem => ?_, settled⟩
  · rw [reports, completed]
    exact reported.reports
  · have before := reported.counted
    dsimp only at before
    rw [pending] at before
    rw [workers, pending, completed]
    omega
  · have mem := reported.raised k (completed ▸ le) f said
    rw [workers]
    exact List.mem_cons_of_mem _ ((List.mem_cons.1 mem).resolve_left (going f).symm)
  · rw [workers] at mem
    have among := (List.mem_cons.1 mem).resolve_left (still f).symm
    obtain ⟨k, le, said⟩ := reported.cause f (List.mem_cons_of_mem _ among)
    exact ⟨k, completed ▸ le, said⟩

/-- Counting and reporting a result goes the same way whether the callback raises or not, but for
what becomes of the worker. -/
theorem turn_extracted (past : List PassEvent) (p : Pass) (result : ExtractionResult)
    (rest : List Worker) :
    let q := p.turn x onProgress (.extracted result) rest
    (q.items = p.items ∧ q.registry = p.registry ∧ q.completed = p.completed + 1 ∧
      q.reports = p.reports ++ [(p.completed + 1, p.items.length)]) ∧
    done (past ++ p.news x onProgress (.extracted result)) = done past ∧
    ∃ v, q.workers = v :: rest ∧ v.result? = none ∧
      ∀ f, .stopped (some f) = v ↔ onProgress (p.completed + 1) p.items.length = some f := by
  cases answer : onProgress (p.completed + 1) p.items.length with
  | none =>
    simp [turn, news, Pass.advance, record, answer, Worker.event, Worker.result?, done,
      extractions, PassEvent.extracted?]
  | some g =>
    simp [turn, news, Pass.advance, record, answer, Worker.event, Worker.result?, eq_comm]

/-- A worker counts its result and reports it. -/
theorem Reported.count {result : ExtractionResult}
    (reported : Reported onProgress base n past { p with workers := .extracted result :: rest }) :
    Reported onProgress base n (past ++ p.news x onProgress (.extracted result))
      (p.turn x onProgress (.extracted result) rest) := by
  obtain ⟨length, reports, counted, raised, cause, settled⟩ := reported
  dsimp only at length reports counted raised cause settled
  obtain ⟨⟨items, registry, completed, more⟩, same, v, workers, vacant, shown⟩ :=
    turn_extracted past p result rest
  rw [length] at more shown
  refine ⟨items ▸ length, ?_, ?_, fun k le f said => ?_, fun f mem => ?_, ?_⟩
  · rw [more, completed, reports, List.range_succ (n := p.completed + 1), List.map_append]
    rfl
  · simp only [List.filterMap_cons, Worker.result?, List.length_cons] at counted
    rw [workers, completed, same, List.filterMap_cons_none vacant]
    omega
  · rw [workers]
    rw [completed] at le
    rcases Nat.le_succ_iff.1 le with le | rfl
    · -- What was raised before has stopped one of the others.
      have mem := (List.mem_cons.1 (raised k le f said)).resolve_left (by simp)
      exact List.mem_cons_of_mem _ mem
    · exact List.mem_cons.2 (.inl ((shown f).2 said))
  · rw [workers] at mem
    rw [completed]
    rcases List.mem_cons.1 mem with own | mem
    · exact ⟨p.completed + 1, Nat.le_refl _, (shown f).1 own⟩
    · obtain ⟨k, le, said⟩ := cause f (List.mem_cons_of_mem _ mem)
      exact ⟨k, Nat.le_succ_of_le le, said⟩
  · rw [registry]
    exact settled

/-- A worker goes on with the item that it has in hand. -/
theorem Reported.work (books : Books onProgress items past p) (workers : p.workers.Perm (w :: rest))
    (reported : Reported onProgress base n past { p with workers := w :: rest }) {k : Nat}
    (busy : w.place? = some k) :
    Reported onProgress base n (past ++ p.news x onProgress w) (p.turn x onProgress w rest) := by
  have going : ∀ f, w ≠ .stopped (some f) := by
    rintro f rfl
    cases busy
  have vacant : w.result? = none := by
    cases w <;> first | rfl | cases busy
  have settled := reported.settled
  rcases books.work (x := x) workers busy with ⟨session, closing, opened⟩ |
    ⟨e, result, ids, ended, ok, registry⟩
  · have quiet : w.event (.opened k session) = none := by cases w <;> rfl
    simp only [turn, news, opened, quiet, Option.toList_none, List.append_nil]
    refine reported.quiet rfl ⟨rfl, rfl, rfl⟩ going (by simp) (by rw [vacant]; rfl) ?_
    exact fun h mem => (settled h mem).imp_left fun left => List.mem_append_left _ left
  · have extracted : w.event (.extracted result) = some (.extract k result) := by
      cases w <;> first | cases busy; rfl | cases busy
    rw [absorb_of_ok ok] at ended
    simp only [turn, news, ended, extracted, Option.toList_some]
    refine reported.quiet rfl ⟨rfl, rfl, List.length_set⟩ going (by simp)
      (by rw [vacant]; simp [Worker.result?, PassEvent.extracted?]) fun h mem => ?_
    rw [registry]
    by_cases among : h.id ∈ ids
    · exact .inr (List.mem_append_right _ among)
    · rcases settled h mem with left | closed
      · exact .inl (Registry.mem_without.2 ⟨left, among⟩)
      · exact .inr (List.mem_append_left _ closed)

/-- One turn of a worker. -/
theorem Reported.advance (books : Books onProgress items past p)
    (reported : Reported onProgress base n past p) (workers : p.workers.Perm (w :: rest)) :
    Reported onProgress base n (past ++ p.news x onProgress w) (p.turn x onProgress w rest) := by
  have reported := reported.perm workers
  cases w with
  | idle =>
    simp only [turn, news, Pass.advance, ClaimCursor.claim]
    split
    · exact reported.quiet rfl ⟨rfl, rfl, rfl⟩ (by simp) (by simp)
        (by simp [Worker.event, Worker.result?, PassEvent.extracted?]) reported.settled
    · exact reported.quiet rfl ⟨rfl, rfl, rfl⟩ (by simp) (by simp)
        (by simp [Worker.event, Worker.result?]) reported.settled
  | claimed k => exact reported.work books workers rfl
  | opened k session => exact reported.work books workers rfl
  | extracted result => exact reported.count
  | stopped failed =>
    simp only [turn, news, Pass.advance, Worker.event, Option.toList_none, List.append_nil]
    exact reported

/-- A run of a pass, under every order of the workers' steps. -/
theorem Reported.run (furnished : Furnished registry items) (closing : x.MildFor items)
    (books : Books onProgress items past p) (reported : Reported onProgress base n past p)
    (order : List Nat) :
    Reported onProgress base n (past ++ history x onProgress order p)
      (p.run x onProgress order) :=
  (run_induction
    (P := fun past p => Books onProgress items past p ∧ Reported onProgress base n past p) past
    (fun _ _ _ kept same => ⟨kept.1.perm same, kept.2.perm same⟩)
    (fun _ _ _ _ kept workers => ⟨kept.1.advance furnished closing workers,
      kept.2.advance kept.1 workers⟩) ⟨books, reported⟩ order).2

theorem reported_start (begun : onProgress 0 items.length = none) (registry : Registry)
    (width : Nat) :
    Reported onProgress registry items.length [] (start registry items width) where
  length := rfl
  reports := rfl
  counted := by simp [start, done, extractions, Worker.result?]
  raised k le f said := by
    obtain rfl : k = 0 := Nat.le_zero.1 le
    rw [begun] at said
    cases said
  cause f mem := by cases List.eq_of_mem_replicate mem
  settled h mem := .inl mem

/-! ### When all workers have stopped -/

/-- A pass is ended by what the first worker that was stopped shows. -/
theorem endPass_of_failure {f : Failure} (first : p.firstFailure = some f) (elapsed : Binary64)
    (started : List Record) : (endPass p elapsed started).result = .error f := by
  simp only [endPass, first]

theorem reports_endPass (p : Pass) (elapsed : Binary64) (started : List Record) :
    (endPass p elapsed started).reports = p.reports := by
  unfold endPass
  dsimp only
  split
  · rfl
  · split <;> rfl

theorem firstFailure_of_mem {f : Failure} (mem : .stopped (some f) ∈ p.workers) :
    ∃ g, p.firstFailure = some g := by
  refine Option.ne_none_iff_exists'.1 fun hnone => ?_
  cases List.findSome?_eq_none_iff.1 hnone _ mem

theorem mem_of_firstFailure {f : Failure} (first : p.firstFailure = some f) :
    .stopped (some f) ∈ p.workers := by
  obtain ⟨w, mem, shown⟩ := List.exists_of_findSome?_eq_some first
  cases w with
  | stopped failed =>
    obtain rfl : failed = some f := shown
    exact mem
  | idle | claimed _ | opened _ _ | extracted _ => cases shown

/-- What was claimed was extracted, and was reported. -/
theorem Books.all_extracted (books : Books onProgress items past p)
    (reported : Reported onProgress base n past p)
    (quit : ∀ w ∈ p.workers, ∃ failed, w = .stopped failed) :
    (done past).Perm (claims past) ∧ claims past = List.range p.completed := by
  have places := books.stock.places
  have counted := reported.counted
  obtain ⟨busy, pending, -⟩ := idle_of_stopped quit
  rw [busy, List.append_nil] at places
  rw [pending, List.length_nil, Nat.add_zero, places.length_eq, List.length_range] at counted
  have claimed : claims past = List.range p.completed := by rw [books.stock.claims, counted]
  exact ⟨by rwa [books.stock.claims], claimed⟩

/-- A pass only fails with what has stopped a worker. -/
theorem Books.stopped_of_failed (books : Books onProgress items past p)
    (working : p.workers ≠ [] ∨ items = [])
    (quit : ∀ w ∈ p.workers, ∃ failed, w = .stopped failed) {elapsed : Binary64}
    {started : List Record} {f : Failure} (failed : (endPass p elapsed started).result = .error f) :
    .stopped (some f) ∈ p.workers := by
  cases first : p.firstFailure with
  | some g =>
    obtain rfl : g = f := Except.error.inj ((endPass_of_failure first elapsed started).symm.trans
      failed)
    exact mem_of_firstFailure first
  | none =>
    -- Without such a worker all is extracted, and no handle is left to complain about.
    have inv := books.invariant_of_unbroken fun failed mem =>
      List.findSome?_eq_none_iff.1 first _ mem
    have released := (inv.complete working quit).2.2.2.2.2
    rw [(endPass_of_released p elapsed started first released).2] at failed
    cases failed

/-- If the callback raises for one of the numbers up to that of the items, then a worker was stopped
by it. -/
theorem Books.failed_of_raising (books : Books onProgress items past p)
    (reported : Reported onProgress base items.length past p)
    (working : p.workers ≠ [] ∨ items = [])
    (quit : ∀ w ∈ p.workers, ∃ failed, w = .stopped failed) {k : Nat} (le : k ≤ items.length)
    {f : Failure} (raised : onProgress k items.length = some f) :
    ∃ g, p.firstFailure = some g := by
  by_contra clean
  have first : p.firstFailure = none :=
    Option.eq_none_iff_forall_ne_some.2 fun g same => clean ⟨g, same⟩
  -- Then all numbers have been reported, this one among them.
  have inv := books.invariant_of_unbroken fun failed mem =>
    List.findSome?_eq_none_iff.1 first _ mem
  have completed := (inv.complete working quit).2.2.1
  exact clean (firstFailure_of_mem (reported.raised k (completed ▸ le) f raised))

/-- What becomes of an item and of its content. -/
theorem Books.item_left (leased : Leased registry items) (books : Books onProgress items past p)
    (reported : Reported onProgress registry items.length past p)
    (kept : ∀ h ∈ p.registry.registered, h ∈ registry.registered)
    (quit : ∀ w ∈ p.workers, ∃ failed, w = .stopped failed) {k : Nat} {item : Item} {h : Handle}
    (hat : items[k]? = some item) (registered : h ∈ registry.registered)
    (held : item.content = some h.id) :
    (k ∈ claims past → (∃ left, p.items[k]? = some left ∧ left.content = none) ∧
      h ∉ p.registry.registered ∧ p.registry.closings.count h.id = 1) ∧
    (k ∉ claims past → p.items[k]? = some item ∧ h ∈ p.registry.registered ∧
      h.id ∉ p.registry.closings) := by
  obtain ⟨all, -⟩ := books.all_extracted reported quit
  have holds := books.stock.holds
  obtain ⟨lease, among, held', kind, -⟩ := leased.lease item (List.mem_of_getElem? hat)
  obtain rfl : lease = h :=
    leased.sound.eq_of_id among registered (Option.some.inj (held'.symm.trans held))
  refine ⟨fun claimed => ?_, fun unclaimed => ?_⟩
  · have extracted : k ∈ done past := all.mem_iff.2 claimed
    have out : lease ∉ p.registry.registered := by
      intro mem
      obtain ⟨j, other, at_j, left, same⟩ := holds.owned lease mem kind
      exact left (leased.furnished.place_eq at_j hat same held ▸ extracted)
    refine ⟨?_, out, ?_⟩
    · obtain ⟨bound, -⟩ := List.getElem?_eq_some_iff.1 hat
      rw [← books.stock.length] at bound
      exact ⟨p.items[k], List.getElem?_eq_getElem bound,
        books.stock.emptied k extracted _ (List.getElem?_eq_getElem bound)⟩
    · exact List.count_eq_one_of_mem holds.sound.closed_once
        ((reported.settled lease registered).resolve_left out)
  · have left : k ∉ done past := fun mem => unclaimed (all.mem_iff.1 mem)
    obtain ⟨g, mem, same, -⟩ := holds.lease k item lease.id hat left held
    obtain rfl : g = lease := leased.sound.eq_of_id (kept g mem) registered same
    exact ⟨(books.stock.left k left).trans hat, mem, holds.sound.not_closed g mem⟩

end Pass

namespace PassRun

variable {r : PassRun}

/-- What the workers do. -/
def past (r : PassRun) : List PassEvent :=
  match r.onProgress 0 r.items.length, (poolWidth r.workers r.items.length).quantity? with
  | none, some (.whole n) =>
    Pass.history r.extractor r.onProgress (r.order n.toNat r.items.length)
      (Pass.start r.registry r.items n.toNat)
  | _, _ => []

/-- The places whose items were extracted. -/
def extracted (r : PassRun) : List Nat := Pass.done r.past

theorem claims_past (r : PassRun) : Pass.claims r.past = r.claimed := by
  unfold past claimed
  cases r.onProgress 0 r.items.length with
  | some f => rfl
  | none => cases (poolWidth r.workers r.items.length).quantity? with
    | none => rfl
    | some q => cases q <;> rfl

/-- The workers of a pass when they have all stopped. -/
theorem Ready.stopped (ready : r.Ready) (begun : r.onProgress 0 r.items.length = none) :
    ∃ p started, r.ending = endPass p .zero started ∧
      Pass.Books r.onProgress r.items r.past p ∧
      Pass.Reported r.onProgress r.registry r.items.length r.past p ∧
      (p.workers ≠ [] ∨ r.items = []) ∧ ∀ w ∈ p.workers, ∃ failed, w = .stopped failed := by
  obtain ⟨n, p, started, width, ran, ended, books, working, quit⟩ := ready.set_out begun
  have past_eq : r.past = Pass.history r.extractor r.onProgress (r.order n r.items.length)
      (Pass.start r.registry r.items n) := by
    simp only [past, begun, width, Int.toNat_natCast]
  have furnished := ready.leased.furnished
  have reported := (Pass.reported_start begun r.registry n).run furnished
    (Extractor.mildFor_of_mild ready.closing r.items) (Pass.invariant_start furnished n).books
    (r.order n r.items.length)
  rw [List.nil_append, ← ran, ← past_eq] at reported
  exact ⟨p, started, ended, past_eq ▸ books, reported, working, quit⟩

/-- What emptying the registry closes after a pass. -/
theorem Ready.emptied (ready : r.Ready)
    (mild : ∀ h ∈ r.registry.registered, h.kind ≠ Registry.contentKind → h.Mild) :
    r.ending.registry.releaseAll.result = .ok r.ending.registry.registered.length ∧
      ∀ h ∈ r.ending.registry.registered,
        r.ending.registry.releaseAll.registry.closings.count h.id = 1 := by
  obtain ⟨sound, -, kept, -, -⟩ := ready.aftermath
  have all : ∀ h ∈ r.ending.registry.registered, h.Mild := by
    intro h mem
    by_cases kind : h.kind = Registry.contentKind
    · obtain ⟨item, among, held⟩ := ready.leased.owned h (kept h mem) kind
      obtain ⟨lease, registered, held', -, fine⟩ := ready.leased.lease item among
      have same : lease.id = h.id := Option.some.inj (held'.symm.trans held)
      rwa [ready.leased.sound.eq_of_id registered (kept h mem) same] at fine
    · exact mild h (kept h mem) kind
  obtain ⟨result, registry⟩ := Registry.releaseAll_of_mild all
  refine ⟨result, fun h mem => ?_⟩
  refine List.count_eq_one_of_mem sound.releaseAll.closed_once ?_
  rw [registry]
  exact List.mem_append_right _ (List.mem_map_of_mem mem)

/-- What a pass leaves. It ends with a failure exactly if a call of its callback has raised one, and
with such a failure; if the callback raises for one of the numbers up to that of the items then it
has raised. The reports count up to the number of the places claimed, those that raise among them.
Every place that was claimed was extracted once: its item has let go of its content, which is out of
the registry and has been closed once. Every other item is as it was, with its content registered
and open. No session is left. -/
structure Account (r : PassRun) : Prop where
  failed : (∃ f, r.ending.result = .error f) ↔
    ∃ k, (k, r.items.length) ∈ r.ending.reports ∧ r.onProgress k r.items.length ≠ none
  cause : ∀ f, r.ending.result = .error f →
    ∃ k, (k, r.items.length) ∈ r.ending.reports ∧ r.onProgress k r.items.length = some f
  called : ∀ k ≤ r.items.length, r.onProgress k r.items.length ≠ none →
    ∃ f, r.ending.result = .error f
  reports : r.ending.reports =
    (List.range (r.claimed.length + 1)).map fun k => (k, r.items.length)
  once : r.extracted.Nodup
  all : ∀ k, k ∈ r.extracted ↔ k ∈ r.claimed
  sessions : ∀ h ∈ r.ending.registry.registered, h.kind ≠ Registry.decodeKind
  finalized : ∀ k ∈ r.claimed, ∀ item, r.items[k]? = some item → ∀ h ∈ r.registry.registered,
    item.content = some h.id → (∃ left, r.ending.items[k]? = some left ∧ left.content = none) ∧
      h ∉ r.ending.registry.registered ∧ r.ending.registry.closings.count h.id = 1
  untouched : ∀ k ∉ r.claimed, ∀ item, r.items[k]? = some item → ∀ h ∈ r.registry.registered,
    item.content = some h.id → r.ending.items[k]? = some item ∧
      h ∈ r.ending.registry.registered ∧ h.id ∉ r.ending.registry.closings

/-- A pass whose first report is refused claims nothing. -/
theorem Ready.account_of_refused (ready : r.Ready) {f : Failure}
    (refused : r.onProgress 0 r.items.length = some f) : r.Account := by
  have ended : r.ending = { registry := r.registry, items := r.items, result := .error f
                            reports := [(0, r.items.length)], log := [] } := by
    simp only [ending, runPass, refused]
  have nothing : r.past = [] := by simp only [past, refused]
  have unclaimed : r.claimed = [] := by rw [← claims_past, nothing]; rfl
  have unextracted : r.extracted = [] := by rw [extracted, nothing]; rfl
  constructor
  · rw [ended]
    exact ⟨fun _ => ⟨0, List.mem_singleton.2 rfl, by simp [refused]⟩, fun _ => ⟨f, rfl⟩⟩
  · rw [ended]
    intro g failed
    obtain rfl : f = g := Except.error.inj failed
    exact ⟨0, List.mem_singleton.2 rfl, refused⟩
  · rw [ended]
    exact fun _ _ _ => ⟨f, rfl⟩
  · rw [ended, unclaimed]
    rfl
  · rw [unextracted]
    exact List.nodup_nil
  · simp [unextracted, unclaimed]
  · rw [ended]
    exact ready.leased.quiet
  · simp [unclaimed]
  · rw [ended]
    exact fun k _ item hat h mem _ => ⟨hat, mem, ready.leased.sound.not_closed h mem⟩

/-- What its workers leave, once they have set out. -/
theorem Ready.account_of_begun (ready : r.Ready)
    (begun : r.onProgress 0 r.items.length = none) : r.Account := by
  have kept := ready.aftermath.kept
  obtain ⟨p, started, ended, books, reported, working, quit⟩ := ready.stopped begun
  obtain ⟨all, claimed⟩ := books.all_extracted reported quit
  obtain ⟨registry, items⟩ := Pass.frame_endPass p .zero started
  have reports := Pass.reports_endPass p .zero started
  rw [← ended] at registry items reports
  have count : r.claimed.length = p.completed := by rw [← claims_past, claimed, List.length_range]
  have reports_eq : r.ending.reports =
      (List.range (r.claimed.length + 1)).map fun k => (k, r.items.length) := by
    rw [reports, count]
    exact reported.reports
  rw [registry] at kept
  have left {k : Nat} {item : Item} {h : Handle} (hat : r.items[k]? = some item)
      (mem : h ∈ r.registry.registered) (held : item.content = some h.id) :=
    books.item_left ready.leased reported kept quit hat mem held
  rw [claims_past] at all left
  have among (k : Nat) : (k, r.items.length) ∈ r.ending.reports ↔ k ≤ p.completed := by
    rw [reports_eq, count]
    simp only [List.mem_map, List.mem_range, Prod.mk.injEq, and_true, exists_eq_right,
      Nat.lt_succ_iff]
  have cause (f : Failure) (failed : r.ending.result = .error f) :
      ∃ k, (k, r.items.length) ∈ r.ending.reports ∧ r.onProgress k r.items.length = some f := by
    obtain ⟨k, le, raised⟩ :=
      reported.cause f (books.stopped_of_failed working quit (ended ▸ failed))
    exact ⟨k, (among k).2 le, raised⟩
  have fails {g : Failure} (first : p.firstFailure = some g) :
      ∃ f, r.ending.result = .error f :=
    ⟨g, ended ▸ Pass.endPass_of_failure first .zero started⟩
  constructor
  · constructor
    · rintro ⟨f, failed⟩
      obtain ⟨k, mem, raised⟩ := cause f failed
      exact ⟨k, mem, by simp [raised]⟩
    · rintro ⟨k, mem, raises⟩
      obtain ⟨f, raised⟩ := Option.ne_none_iff_exists'.1 raises
      obtain ⟨g, first⟩ :=
        Pass.firstFailure_of_mem (reported.raised k ((among k).1 mem) f raised)
      exact fails first
  · exact cause
  · intro k le raises
    obtain ⟨f, raised⟩ := Option.ne_none_iff_exists'.1 raises
    obtain ⟨g, first⟩ := books.failed_of_raising reported working quit le raised
    exact fails first
  · exact reports_eq
  · exact all.nodup_iff.2 (by rw [← claims_past, claimed]; exact List.nodup_range)
  · exact fun k => all.mem_iff
  · rw [registry]
    exact books.no_decode quit
  · intro k among item hat h mem held
    rw [registry, items]
    exact (left hat mem held).1 among
  · intro k out item hat h mem held
    rw [registry, items]
    exact (left hat mem held).2 out

/-- Every pass over a catalog comes to this account, whatever its callback raises, for every fair
order of the workers' turns. Emptying the registry afterwards takes out all that is left, and closes
each resource once if those that are not contents raise nothing worse than refusals of the operating
system. -/
theorem callback_ends_pass (r : PassRun) (ready : r.Ready) :
    let left := r.ending.registry
    r.Account ∧ left.releaseAll.registry.registered = [] ∧
    ((∀ h ∈ r.registry.registered, h.kind ≠ Registry.contentKind → h.Mild) →
      left.releaseAll.result = .ok left.registered.length ∧
      ∀ h ∈ left.registered, left.releaseAll.registry.closings.count h.id = 1) := by
  refine ⟨?_, Registry.registered_releaseAll _, ready.emptied⟩
  cases begun : r.onProgress 0 r.items.length with
  | some f => exact ready.account_of_refused begun
  | none => exact ready.account_of_begun begun

/-- A pass over two clips with one worker, whose callback raises at the first count. -/
def interrupted : PassRun where
  extractor := Extractor.hanging
  workers := .int 1
  onProgress k _ := if k = 1 then some (.raised (.other "RuntimeError") "boom") else none
  registry := Pass.twoLeases
  items := Pass.twoClips

theorem ready_interrupted : interrupted.Ready where
  leased := Pass.leased_twoClips
  closing _ _ _ raised := Option.some.inj raised ▸ rfl
  wanted := ⟨1, Nat.le_refl _, rfl⟩
  fair := fair_inTurn

/-- The first clip is extracted and reported; the second keeps its content until the registry is
emptied. -/
theorem callback_ends_pass_interrupted :
    (∃ f, interrupted.ending.result = .error f) ∧ interrupted.claimed = [0] ∧
      interrupted.ending.reports = [(0, 2), (1, 2)] ∧
      (⟨3, "content", none⟩ : Handle) ∈ interrupted.ending.registry.registered ∧
      interrupted.ending.registry.releaseAll.registry.closings.count 3 = 1 := by
  obtain ⟨account, -, closed⟩ := callback_ends_pass interrupted ready_interrupted
  have claimed : interrupted.claimed = [0] := by decide +kernel
  have mild : ∀ h ∈ interrupted.registry.registered, h.kind ≠ Registry.contentKind → h.Mild := by
    simp [interrupted, Pass.twoLeases, Handle.Mild]
  obtain ⟨-, there, -⟩ := account.untouched 1 (by simp [claimed]) _ rfl ⟨3, "content", none⟩
    (by simp [interrupted, Pass.twoLeases]) rfl
  refine ⟨account.called 1 (by decide) (by decide), claimed, ?_, there, (closed mild).2 _ there⟩
  rw [account.reports, claimed]
  rfl

end PassRun

end VideoCatalog
