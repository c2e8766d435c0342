import VideoCatalog.Proofs.Session.Handles

/-!
# Enumerations that fail

An enumerator offers what it finds one after another, and may fail before or after any of it. A
session takes in all that is offered before it gives back anything of its own.

* `Offer`, `Enumeration.ofOffers`: what an enumerator does, and what it comes to.
  `ofOffers_append` and `exists_offers` say that all enumerations come about in this way.
* `Client.noted`: some records in the log of a session, and nothing else.
* `step_scan_of_failure`, `step_scanDirectory_of_root`, `step_scanDirectory_of_other`: the calls that
  scan, as they end if something fails.
* `failed_enumeration_keeps`: a failed enumeration changes nothing, and a fallback is scanned once if
  the root cannot be enumerated.
-/

namespace VideoCatalog

/-- One thing that an enumerator does: it finds a file, notes something, or fails. -/
inductive Offer where
  | found (d : Descriptor)
  | noted (r : Record)
  | failed (f : Failure)
deriving DecidableEq

namespace Offer

/-- What an offer is on its own. -/
def enumeration : Offer → Enumeration
  | found d => ⟨.ok [d], []⟩
  | noted r => ⟨.ok [], [r]⟩
  | failed f => ⟨.error f, []⟩

/-- The first failure among some offers. -/
def failure? : List Offer → Option Failure
  | [] => none
  | failed f :: _ => some f
  | _ :: rest => failure? rest

/-- The records among some offers, up to the first failure. -/
def records : List Offer → List Record
  | [] => []
  | failed _ :: _ => []
  | noted r :: rest => r :: records rest
  | found _ :: rest => records rest

/-- The files among some offers. -/
def files : List Offer → List Descriptor
  | [] => []
  | found d :: rest => d :: files rest
  | _ :: rest => files rest

end Offer

namespace Enumeration

/-- Offers that are taken in one after another, up to the first failure. -/
def ofOffers (offers : List Offer) : Enumeration :=
  offers.foldr (fun offer later => offer.enumeration.andThen fun _ => later) .nothing

theorem nothing_andThen (e : Enumeration) : nothing.andThen (fun _ => e) = e := by
  rcases e with ⟨_ | found, log⟩ <;> rfl

theorem andThen_assoc (a b e : Enumeration) :
    (a.andThen fun _ => b).andThen (fun _ => e) = a.andThen fun _ => b.andThen fun _ => e := by
  rcases a with ⟨_ | found, log⟩
  · rfl
  · rcases b with ⟨_ | found', log'⟩
    · rfl
    · rcases e with ⟨_ | found'', log''⟩ <;> simp [andThen, Except.map]

/-- One enumerator after another. -/
theorem ofOffers_append (offers later : List Offer) :
    ofOffers (offers ++ later) = (ofOffers offers).andThen fun _ => ofOffers later := by
  induction offers with
  | nil => exact (nothing_andThen _).symm
  | cons offer rest ih =>
    calc ofOffers (offer :: rest ++ later)
        = offer.enumeration.andThen fun _ => ofOffers (rest ++ later) := rfl
      _ = offer.enumeration.andThen fun _ => (ofOffers rest).andThen fun _ => ofOffers later := by
          rw [ih]
      _ = (ofOffers (offer :: rest)).andThen fun _ => ofOffers later := (andThen_assoc ..).symm

/-- Nothing comes after the first failure, and what was found before it is lost. -/
theorem ofOffers_eq (offers : List Offer) : ofOffers offers =
    ⟨match Offer.failure? offers with
      | some f => .error f
      | none => .ok (Offer.files offers), Offer.records offers⟩ := by
  induction offers with
  | nil => rfl
  | cons offer rest ih =>
    rw [show ofOffers (offer :: rest) = offer.enumeration.andThen fun _ => ofOffers rest from rfl, ih]
    cases offer with
    | failed f => rfl
    | found d =>
      simp only [Offer.enumeration, andThen, Offer.failure?, Offer.files, Offer.records]
      cases Offer.failure? rest <;> rfl
    | noted r =>
      simp only [Offer.enumeration, andThen, Offer.failure?, Offer.files, Offer.records]
      cases Offer.failure? rest <;> rfl

/-- Every enumeration is what some offers come to. -/
theorem exists_offers (e : Enumeration) : ∃ offers, e = ofOffers offers := by
  have logged (log : List Record) : ofOffers (log.map .noted) = ⟨.ok [], log⟩ := by
    induction log with
    | nil => rfl
    | cons r rest ih =>
      rw [show ofOffers ((r :: rest).map .noted) =
        (Offer.noted r).enumeration.andThen fun _ => ofOffers (rest.map .noted) from rfl, ih]
      rfl
  have listed (found : List Descriptor) : ofOffers (found.map .found) = ⟨.ok found, []⟩ := by
    induction found with
    | nil => rfl
    | cons d rest ih =>
      rw [show ofOffers ((d :: rest).map .found) =
        (Offer.found d).enumeration.andThen fun _ => ofOffers (rest.map .found) from rfl, ih]
      rfl
  rcases e with ⟨f | found, log⟩
  · refine ⟨log.map .noted ++ [.failed f], ?_⟩
    rw [ofOffers_append, logged]
    simp [ofOffers, Offer.enumeration, andThen, Except.map]
  · refine ⟨log.map .noted ++ found.map .found, ?_⟩
    rw [ofOffers_append, logged, listed]
    simp [andThen, Except.map]

end Enumeration

open SessionM

namespace Client

/-- A client whose session has logged some more records. -/
def noted (c : Client) (records : List Record) : Client :=
  { c with session := { c.session with log := c.session.log ++ records } }

variable {c : Client} {order fallbackOrder : Nat → Nat → List Nat} {root : Path} {f : Failure}

/-- A scan whose enumeration fails changes nothing. -/
theorem step_scan_of_failure {enumerate : FileTree → Enumeration}
    (found : (enumerate c.session.tree).result = .error f) : c.step (.scan enumerate order) =
      (.error f, c.noted (enumerate c.session.tree).log) := by
  have built := run_rebuild_of_failure found
  simp only [step, passOf, SessionM.scan, run_bind_of_error built, built]
  rfl

/-- The pass over what was found: it has the handles of the new catalog, and begins if those before
could be given back. -/
theorem passOf_of_found {s : Session} {enumerate : FileTree → Enumeration}
    {descriptors : List Descriptor} (found : (enumerate s.tree).result = .ok descriptors) :
    passOf s enumerate order = s.registry.releaseAll.result.toOption.map fun _ =>
      let built := Catalog.buildItems s.registry.releaseAll.registry s.store.tagsFor descriptors
      ⟨s.extractor, s.workers, s.onProgress, built.registry, built.items, order⟩ := by
  unfold passOf rebuild
  rw [run_bind_of_ok (run_get s), run_bind_of_ok (run_note _ s), found,
    run_bind_of_ok (run_ofResult _ _)]
  rcases run_teardown_cases { s with log := s.log ++ (enumerate s.tree).log } with
    ⟨f, s', failed, torn⟩ | ⟨n, log, released, torn⟩
  · rw [run_bind_of_error torn, show s.registry.releaseAll.result = .error f from failed]
    rfl
  · rw [run_bind_of_ok torn, show s.registry.releaseAll.result = .ok n from released]
    rfl

/-- The log makes no difference for a pass. -/
theorem passOf_noted (s : Session) (records : List Record) (enumerate : FileTree → Enumeration)
    (order : Nat → Nat → List Nat) :
    passOf { s with log := s.log ++ records } enumerate order = passOf s enumerate order := by
  cases found : (enumerate s.tree).result with
  | error f =>
    rw [passOf, passOf, run_rebuild_of_failure found,
      run_rebuild_of_failure (s := { s with log := s.log ++ records }) found]
  | ok descriptors =>
    rw [passOf_of_found found, passOf_of_found (s := { s with log := s.log ++ records }) found]

/-- If the root cannot be enumerated, the fallback is scanned, and nothing else. -/
theorem step_scanDirectory_of_root {files : List Path}
    (failed : (c.step (.scan (directory c.session.config root) order)).1 = .error f)
    (isRoot : f.isRoot = true) :
    c.step (.scanDirectory root (some files) order fallbackOrder) =
      ((c.step (.scan (directory c.session.config root) order)).2.noted [directoryFailed f]).step
        (.scan (selection c.session.config root files) fallbackOrder) := by
  rcases ran : (SessionM.scan (directory c.session.config root) order).run c.session with ⟨result, s⟩
  obtain rfl : result = .error f := by simpa [step, ran] using failed
  have first : c.step (.scan (directory c.session.config root) order) =
      (.error f, c.scanned s (passOf c.session (directory c.session.config root) order)) := by
    simp only [step, ran]
  have kept :
      (c.scanned s (passOf c.session (directory c.session.config root) order)).session = s := by
    cases passOf c.session (directory c.session.config root) order <;> rfl
  rw [first]
  simp only [step, run_scanDirectory_of_root ran isRoot, directoryPass, ran, retried, isRoot, if_true,
    noted, kept, passOf_noted]
  cases passOf s (selection c.session.config root files) fallbackOrder <;>
    cases passOf c.session (directory c.session.config root) order <;> rfl

/-- However else the scan of the directory ends, it is the only one. -/
theorem step_scanDirectory_of_other {fallback : Option (List Path)} (other : fallback = none ∨
      ∀ f, (c.step (.scan (directory c.session.config root) order)).1 = .error f →
        f.isRoot = false) :
    c.step (.scanDirectory root fallback order fallbackOrder) =
      c.step (.scan (directory c.session.config root) order) := by
  have same : (SessionM.scanDirectory root fallback order fallbackOrder).run c.session =
      (SessionM.scan (directory c.session.config root) order).run c.session :=
    run_scanDirectory_of_other other
  rcases ran : (SessionM.scan (directory c.session.config root) order).run c.session with ⟨result, s⟩
  have passedOn : retried (result, s) fallback = none := by
    rcases other with rfl | other
    · cases result <;> rfl
    · cases result with
      | ok _ => rfl
      | error f =>
        have notRoot := other f (by simp only [step, ran])
        cases fallback with
        | none => rfl
        | some files => simp [retried, notRoot]
  simp only [step, same, directoryPass, ran, passedOn]

end Client

/-- Take a client in any state, and an enumerator that fails after it has offered whatever it has. A
scan then fails as it does, and nothing of the client or its session is different but for the records
in the log: not the catalog with its items, the handles, the streams, the statistics, the tags, nor a
file. A directory without a fallback is scanned as any other enumeration. With a fallback it is, too,
unless that scan fails because a root cannot be enumerated: then the fallback is scanned, once, from
the state that the first scan has left. -/
theorem failed_enumeration_keeps (c : Client) (order fallbackOrder : Nat → Nat → List Nat) :
    (∀ (enumerate : FileTree → Enumeration) (offers : List Offer) (f : Failure),
      enumerate c.session.tree = .ofOffers offers → Offer.failure? offers = some f →
        c.step (.scan enumerate order) = (.error f, c.noted (Offer.records offers))) ∧
    ∀ root : Path,
      let first := c.step (.scan (directory c.session.config root) order);
      c.step (.scanDirectory root none order fallbackOrder) = first ∧
      ∀ files : List Path,
        let second := c.step (.scanDirectory root (some files) order fallbackOrder);
        (∀ f, first.1 = .error f → f.isRoot = true → second =
          (first.2.noted [directoryFailed f]).step
            (.scan (selection c.session.config root files) fallbackOrder)) ∧
        ((∀ f, first.1 = .error f → f.isRoot = false) → second = first) := by
  refine ⟨fun enumerate offers f offered failed => ?_, fun root => ?_⟩
  · have found : enumerate c.session.tree = ⟨.error f, Offer.records offers⟩ := by
      rw [offered, Enumeration.ofOffers_eq, failed]
    rw [Client.step_scan_of_failure (by rw [found]), found]
  · exact ⟨Client.step_scanDirectory_of_other (.inl rfl), fun files =>
      ⟨fun f => Client.step_scanDirectory_of_root,
        fun other => Client.step_scanDirectory_of_other (.inr other)⟩⟩

/-- A root that is not there. -/
def goneRoot : Path := ⟨"/", ["gone"]⟩

/-- An enumerator that has found a video before it fails. -/
def failingOffers : List Offer := [.found (videoNamed "c.mp4"), .failed (.rootMissing "/gone")]

/-- The content of the second video and the open stream stay registered when an enumeration fails,
and when the root is not there the video that is named instead is scanned. -/
theorem failed_enumeration_keeps_playing :
    ∃ s log, startedAmongVideos = (.ok s, log) ∧
      let c := Client.run { session := s } scanAndPlay;
      c.session.registry.registered.map (·.kind) = ["content", "playback"] ∧
      c.step (.scan (fun _ => .ofOffers failingOffers) Pass.inTurn) =
        (.error (.rootMissing "/gone"), c.noted []) ∧
      c.step (.scan (directory c.session.config goneRoot) Pass.inTurn) =
        (.error (.rootMissing "/gone"), c.noted []) ∧
      c.step (.scanDirectory goneRoot (some [⟨"/", ["a.mp4"]⟩]) Pass.inTurn Pass.inTurn) =
        ((c.noted []).noted [directoryFailed (.rootMissing "/gone")]).step
          (.scan (selection c.session.config goneRoot [⟨"/", ["a.mp4"]⟩]) Pass.inTurn) := by
  have known : startedAmongVideos.1.toOption.map (fun s =>
      let c := Client.run { session := s } scanAndPlay
      (c.session.registry.registered.map (·.kind),
        (directory c.session.config goneRoot c.session.tree).result,
        (directory c.session.config goneRoot c.session.tree).log)) =
      some (["content", "playback"], .error (.rootMissing "/gone"), []) := by decide +kernel
  obtain ⟨s, log, started, left⟩ := Session.exists_of_started known
  simp only [Prod.mk.injEq] at left
  obtain ⟨kinds, refused, silent⟩ := left
  let c := Client.run { session := s } scanAndPlay
  obtain ⟨keeps, falls⟩ := failed_enumeration_keeps c Pass.inTurn Pass.inTurn
  have gone : directory c.session.config goneRoot c.session.tree =
      .ofOffers [.failed (.rootMissing "/gone")] := by
    rw [Enumeration.ofOffers_eq]
    exact congrArg₂ Enumeration.mk refused silent
  have first := keeps (directory c.session.config goneRoot) _ _ gone rfl
  obtain ⟨-, second⟩ := falls goneRoot
  have fallen := (second [⟨"/", ["a.mp4"]⟩]).1 (.rootMissing "/gone") (by rw [first]) rfl
  rw [first] at fallen
  exact ⟨s, log, started, kinds, keeps _ failingOffers _ rfl rfl, first, fallen⟩

end VideoCatalog
