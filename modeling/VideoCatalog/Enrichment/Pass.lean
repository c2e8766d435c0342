import VideoCatalog.Enrichment.Extraction

/-!
# Enrichment passes

A pass enriches the items of a catalog with several workers. A worker claims the next item,
opens it, finishes its extraction and reports, until no item is left. A worker whose report
fails stops; the others go on.

* `workersOf`: how many workers are asked for.
* `Worker`, `Pass`: where a worker is, and the state that all share.
* `Pass.step`: one step of a worker.
* `runPass`: a whole pass, with the statistics at its end.
-/

namespace VideoCatalog

/-- A shared position in a list of places, handed out one by one. -/
structure ClaimCursor where
  limit : Int
  next : Nat := 0
deriving DecidableEq, Repr

/-- The next place, unless the limit is reached. -/
def ClaimCursor.claim (c : ClaimCursor) : Option Nat × ClaimCursor :=
  if c.limit ≤ c.next then (none, c) else (some c.next, { c with next := c.next + 1 })

/-- What a number of claims in a row give. -/
def ClaimCursor.claims : Nat → ClaimCursor → List (Option Nat)
  | 0, _ => []
  | n + 1, c => c.claim.1 :: ClaimCursor.claims n c.claim.2

/-- How many workers are asked for if nothing is said. -/
def defaultWorkers : Int := 3

/-- How many workers are asked for, at least one. -/
def workersOf (config : Option Configuration) (given : Value) : Except Failure Value :=
  let wanted : Except Failure Value := match given, config with
    | .null, some c => ((c.setting "enrichment" "workers" (.int defaultWorkers)).toInt).map .int
    | .null, none => .ok (.int defaultWorkers)
    | v, _ => .ok v
  match wanted with
  | .error f => .error f
  | .ok v =>
    match v.quantity? with
    | none => .error (.unsuitable v.kind "compared with a number")
    | some q => if q.less (.whole 1) then .error (.tooFewWorkers v.plain) else .ok v

/-- The statistics of a pass. -/
structure PassStats where
  total : Nat
  completed : Nat
  timedOut : Nat
  failed : Nat
deriving DecidableEq, Repr

/-- Where a worker is. -/
inductive Worker where
  | idle
  | claimed (place : Nat)
  | opened (place : Nat) (session : Nat)
  | extracted (result : ExtractionResult)
  | stopped (failed : Option Failure)
deriving DecidableEq, Repr

/-- The state that the workers of a pass share. -/
structure Pass where
  registry : Registry
  items : List Item
  cursor : ClaimCursor
  workers : List Worker
  completed : Nat := 0
  timedOut : Nat := 0
  failed : Nat := 0
  reports : List (Nat × Nat) := []
  log : List Record := []
  opened : List Path := []
  commands : List (List String) := []

namespace Pass

/-- Takes over what an extraction leaves. -/
def absorb (p : Pass) (place : Nat) (done : Extracted) : Pass × Worker :=
  let p := { p with
    registry := done.registry, items := p.items.set place done.item, log := p.log ++ done.log,
    opened := p.opened ++ done.opened, commands := p.commands ++ done.commands }
  match done.result with
  | .ok result => (p, .extracted result)
  | .error f => (p, .stopped (some f))

/-- Counts a result and reports it. -/
def record (onProgress : Nat → Nat → Option Failure) (p : Pass) (result : ExtractionResult) :
    Pass × Worker :=
  let total := p.items.length
  let p := { p with
    completed := p.completed + 1
    timedOut := p.timedOut + (if result.outcome = .timeout then 1 else 0)
    failed := p.failed + (if result.outcome = .error then 1 else 0)
    reports := p.reports ++ [(p.completed + 1, total)] }
  match onProgress p.completed total with
  | some f => (p, .stopped (some f))
  | none => (p, .idle)

/-- What a worker does next. -/
def advance (x : Extractor) (onProgress : Nat → Nat → Option Failure) (p : Pass) :
    Worker → Pass × Worker
  | .idle =>
    match p.cursor.claim with
    | (some place, cursor) => ({ p with cursor := cursor }, .claimed place)
    | (none, _) => (p, .stopped none)
  | .claimed place =>
    match p.items[place]? with
    | none => (p, .stopped none)
    | some item =>
      match x.openItem p.registry item with
      | .inl done => p.absorb place done
      | .inr (session, registry) => ({ p with registry := registry }, .opened place session)
  | .opened place session =>
    match p.items[place]? with
    | none => (p, .stopped none)
    | some item =>
      p.absorb place (x.finishItem (x.decoding p.registry item) p.registry item session)
  | .extracted result => p.record onProgress result
  | .stopped failed => (p, .stopped failed)

/-- One step of a worker. -/
def step (x : Extractor) (onProgress : Nat → Nat → Option Failure) (worker : Nat) (p : Pass) :
    Pass :=
  match p.workers[worker]? with
  | none => p
  | some w =>
    let (p, w) := p.advance x onProgress w
    { p with workers := p.workers.set worker w }

/-- A pass under a given order of the workers' steps. -/
def run (x : Extractor) (onProgress : Nat → Nat → Option Failure) (order : List Nat)
    (p : Pass) : Pass :=
  order.foldl (fun p worker => p.step x onProgress worker) p

/-- The order in which every worker goes on until nothing is left for it. -/
def inTurn (workers items : Nat) : List Nat :=
  (List.range workers).flatMap fun w => List.replicate (4 * items + 1) w

/-- The failure of the first worker that has one. -/
def firstFailure (p : Pass) : Option Failure :=
  p.workers.findSome? fun
    | .stopped failed => failed
    | _ => none

end Pass

/-- What a whole pass leaves. -/
structure PassEnd where
  registry : Registry
  items : List Item
  result : Except Failure PassStats
  reports : List (Nat × Nat)
  log : List Record
  opened : List Path := []
  commands : List (List String) := []

/-- The smaller of the number of workers and the number of items. -/
def poolWidth (workers : Value) (total : Nat) : Value :=
  match workers.quantity? with
  | some q => if (Quantity.whole total).less q then .int total else workers
  | none => workers

/-- The record of the start of a pass. -/
def passStarted (total : Nat) (width : Value) : Record :=
  .info ("Enriching " ++ Quantity.intText total ++ " items with " ++ width.plain ++ " workers")

/-- The record of the end of a pass. -/
def passFinished (stats : PassStats) (elapsed : Binary64) : Record :=
  .info ("Enrichment finished. Items=" ++ Quantity.intText stats.completed ++ " TimedOut=" ++
    Quantity.intText stats.timedOut ++ " Failed=" ++ Quantity.intText stats.failed ++
    " Elapsed=" ++ elapsed.fixed 1 ++ "s")

/-- Ends a pass: its first failure is passed on, then no handle may be left. -/
def endPass (p : Pass) (elapsed : Binary64) (started : List Record) : PassEnd :=
  let stats : PassStats := ⟨p.items.length, p.completed, p.timedOut, p.failed⟩
  let leave (result : Except Failure PassStats) (note : List Record) : PassEnd :=
    { registry := p.registry, items := p.items, result := result, reports := p.reports,
      log := started ++ p.log ++ note, opened := p.opened, commands := p.commands }
  match p.firstFailure with
  | some f => leave (.error f) []
  | none =>
    match p.registry.assertReleased [Registry.contentKind, Registry.decodeKind] with
    | .error f => leave (.error f) []
    | .ok () => leave (.ok stats) [passFinished stats elapsed]

/-- A whole pass over some items. `order` is the order of the workers' steps. -/
def runPass (x : Extractor) (workers : Value) (onProgress : Nat → Nat → Option Failure)
    (elapsed : Binary64) (registry : Registry) (items : List Item)
    (order : Nat → Nat → List Nat := Pass.inTurn) : PassEnd :=
  let total := items.length
  let start : Pass :=
    { registry := registry, items := items, cursor := ⟨total, 0⟩, workers := [],
      reports := [(0, total)] }
  match onProgress 0 total with
  | some f => { registry := registry, items := items, result := .error f, reports := [(0, total)],
                log := [] }
  | none =>
    if total = 0 then endPass start elapsed []
    else
      let width := poolWidth workers total
      let started := [passStarted total width]
      match width.quantity? with
      | some (.whole n) =>
        let n := n.toNat
        let p := { start with workers := List.replicate n .idle }
        endPass (p.run x onProgress (order n total)) elapsed started
      | _ => { registry := registry, items := items,
               result := .error (.unsuitable width.kind "a number of workers"),
               reports := [(0, total)], log := started }

end VideoCatalog
