import VideoCatalog.Proofs.Enrichment.Aftermath
import VideoCatalog.Proofs.Session.Steps

/-!
# The use of a session

A client asks a session for scans, streams and changes of tags, in any order, and keeps the streams
that it gets. Meanwhile the files around the session may change, and so may the way in which
contents are decoded and reports are received.

* `SessionCall`: one thing that is asked for or that changes.
* `Client`: a session with the streams that were opened, those among them that were opened since all
  handles were last given back, and the last pass.
* `Client.step`, `Client.run`: one call, and calls one after another.
* `Session.showing`: a session that has not been asked for anything yet.
-/

namespace VideoCatalog

/-- What is asked of a session, and what changes around it: its files, and the ways in which
contents are decoded and reports are received. -/
inductive SessionCall where
  | files (tree : FileTree)
  | habits (backend : Backend) (onProgress : Nat → Nat → Option Failure)
  | scan (enumerate : FileTree → Enumeration) (order : Nat → Nat → List Nat)
  | scanDirectory (root : Path) (fallback : Option (List Path))
      (order fallbackOrder : Nat → Nat → List Nat)
  | query (text : String) (order : Query.Order)
  | addTag (path tag : String)
  | removeTag (path tag : String)
  | openPlayback (path : String)
  | closeStream (k : Nat)
  | teardown
  | shutdown

/-- Closing a session raises nothing but refusals of the operating system. -/
def Backend.Mild (backend : Backend) : Prop :=
  ∀ path shut f, (backend path shut).closing = some f → f.isSystem = true

namespace SessionCall

/-- Workers get the turns that they need, and closing a session raises nothing but refusals of the
operating system. -/
def Regular : SessionCall → Prop
  | .habits backend _ => backend.Mild
  | .scan _ order => PassRun.Fair order
  | .scanDirectory _ _ order fallbackOrder => PassRun.Fair order ∧ PassRun.Fair fallbackOrder
  | _ => True

/-- Whether a call scans. -/
def Scans : SessionCall → Prop
  | .scan .. | .scanDirectory .. => True
  | _ => False

/-- Whether a call does no more than give back all handles. -/
def GivesBack : SessionCall → Prop
  | .teardown | .shutdown => True
  | _ => False

end SessionCall

/-- A session, the streams that it has opened, the handles of those opened since all handles were
last given back, and the last pass. -/
structure Client where
  session : Session
  streams : List PlaybackStream := []
  recent : List Nat := []
  pass : Option PassRun := none

namespace Client

open SessionM

/-- The pass that a scan runs if it finds anything to enumerate. -/
def passOf (s : Session) (enumerate : FileTree → Enumeration) (order : Nat → Nat → List Nat) :
    Option PassRun :=
  match (rebuild enumerate).run s with
  | (.ok _, s') =>
    some ⟨s'.extractor, s'.workers, s'.onProgress, s'.registry, s'.current, order⟩
  | (.error _, _) => none

/-- The last pass that the scan of a directory runs. -/
def directoryPass (s : Session) (root : Path) (fallback : Option (List Path))
    (order fallbackOrder : Nat → Nat → List Nat) : Option PassRun :=
  let first := passOf s (directory s.config root) order
  match retried ((scan (directory s.config root) order).run s) fallback with
  | some (files, s₁) => (passOf s₁ (selection s.config root files) fallbackOrder).or first
  | none => first

/-- A pass only begins when all handles have been given back. -/
def scanned (c : Client) (s : Session) : Option PassRun → Client
  | some pass => { c with session := s, recent := [], pass := some pass }
  | none => { c with session := s }

/-- What a call answers, and what it leaves. -/
def step (c : Client) : SessionCall → Except Failure Unit × Client
  | .files tree => (.ok (), { c with session := { c.session with tree := tree } })
  | .habits backend onProgress =>
    (.ok (), { c with session := { c.session with
      extractor := { c.session.extractor with backend := backend }, onProgress := onProgress } })
  | .scan enumerate order =>
    let ran := (SessionM.scan enumerate order).run c.session
    (ran.1, c.scanned ran.2 (passOf c.session enumerate order))
  | .scanDirectory root fallback order fallbackOrder =>
    let ran := (SessionM.scanDirectory root fallback order fallbackOrder).run c.session
    (ran.1, c.scanned ran.2 (directoryPass c.session root fallback order fallbackOrder))
  | .query text order =>
    let ran := (SessionM.query text order).run c.session
    (ran.1.map fun _ => (), { c with session := ran.2 })
  | .addTag path tag =>
    let ran := (SessionM.addTag path tag).run c.session
    (ran.1.map fun _ => (), { c with session := ran.2 })
  | .removeTag path tag =>
    let ran := (SessionM.removeTag path tag).run c.session
    (ran.1.map fun _ => (), { c with session := ran.2 })
  | .openPlayback path =>
    match (SessionM.openPlayback path).run c.session with
    | (.ok stream, s) =>
      (.ok (), { c with
        session := s, streams := c.streams ++ [stream], recent := c.recent ++ [stream.handle] })
    | (.error f, s) => (.error f, { c with session := s })
  | .closeStream k =>
    match c.streams[k]? with
    | none => (.ok (), c)
    | some stream =>
      match (SessionM.closeStream stream).run c.session with
      | (.ok stream, s) => (.ok (), { c with session := s, streams := c.streams.set k stream })
      | (.error f, s) => (.error f, { c with session := s })
  | .teardown =>
    let ran := SessionM.teardown.run c.session
    (ran.1, { c with session := ran.2, recent := [] })
  | .shutdown =>
    let ran := SessionM.shutdown.run c.session
    (ran.1, { c with session := ran.2, recent := [] })

/-- Calls one after another, whatever they answer. -/
def run (c : Client) (calls : List SessionCall) : Client :=
  calls.foldl (fun c call => (c.step call).2) c

@[simp] theorem run_nil (c : Client) : c.run [] = c := rfl

@[simp] theorem run_cons (c : Client) (call : SessionCall) (calls : List SessionCall) :
    c.run (call :: calls) = (c.step call).2.run calls := rfl

@[simp] theorem session_scanned (c : Client) (s : Session) (pass : Option PassRun) :
    (c.scanned s pass).session = s := by
  cases pass <;> rfl

@[simp] theorem streams_scanned (c : Client) (s : Session) (pass : Option PassRun) :
    (c.scanned s pass).streams = c.streams := by
  cases pass <;> rfl

/-- What every call keeps is kept by all calls. -/
theorem run_induction {P : Client → Prop} {calls : List SessionCall} {allowed : SessionCall → Prop}
    (step : ∀ c call, allowed call → P c → P (c.step call).2) (c : Client)
    (all : ∀ call ∈ calls, allowed call) (start : P c) : P (c.run calls) := by
  induction calls generalizing c with
  | nil => exact start
  | cons call calls ih =>
    rw [run_cons]
    exact ih _ (fun other mem => all other (List.mem_cons_of_mem _ mem))
      (step c call (all call List.mem_cons_self) start)

end Client

/-- A session over some files that shows some items, with the tags of a store. -/
def Session.showing (tree : FileTree) (store : TagStore) (items : List Item) : Session where
  config := ⟨⟨"/", []⟩, .map []⟩
  around := ⟨⟨"/", []⟩, [], none⟩
  tree := tree
  now := .zero
  store := store
  extractor := Extractor.hanging
  workers := .null
  reporter := { interval := .zero }
  onProgress _ _ := none
  logs := {}
  catalog := some ⟨items⟩

end VideoCatalog
