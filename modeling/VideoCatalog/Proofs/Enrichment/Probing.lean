import Mathlib.Tactic.Common
import VideoCatalog.Enrichment.Program

/-!
# What asking for a duration gives

The output of the program for metadata may be anything.

* `Value.eq_int_of_toReal`: only whole numbers are too large to be turned into a binary64 number.
* `Usable`: nothing, a positive finite number, or a refusal of the decoder.
* `document`: the document that an output holds.
* `Slips`: the outputs at which another failure comes out, and which one; `slips_iff`.
* `usable_or_slips`, `Slips.probed`: what an output gives.
* `probe_usable_iff`: an answer is usable unless the output of a program that has ended well slips.
-/

namespace VideoCatalog

namespace Value

variable {v : Value}

/-- A number is too large exactly if no binary64 number is near it. -/
theorem real_eq_tooLarge {q : Quantity} (held : v.quantity? = some q) :
    v.real = .error .numberTooLarge ↔ q.toReal? = none := by
  unfold Value.real
  simp only [held]
  cases q.toReal? <;> simp

theorem toReal_eq_real (other : ∀ s, v ≠ .text s) : v.toReal = v.real := by
  unfold Value.toReal
  split
  · next s => exact absurd rfl (other s)
  · rfl

/-- Only a whole number is too large to be turned into a binary64 number. -/
theorem eq_int_of_toReal (refused : v.toReal = .error .numberTooLarge) :
    ∃ n, v = .int n ∧ Binary64.ofInt? n = none := by
  cases v with
  | number q =>
    rw [toReal_eq_real (by rintro _ ⟨⟩), real_eq_tooLarge rfl] at refused
    cases q with
    | whole n => exact ⟨n, rfl, refused⟩
    | real x => cases refused
  | bool b =>
    have inside : (Quantity.whole (if b then 1 else 0)).toReal?.isSome = true := by
      cases b <;> decide +kernel
    rw [toReal_eq_real (by rintro _ ⟨⟩), real_eq_tooLarge rfl] at refused
    rw [refused] at inside
    cases inside
  | text s =>
    simp only [Value.toReal] at refused
    cases read : Numeral.real s with
    | ok x => simp [read] at refused
    | error fault => cases fault <;> simp [read, Numeral.Fault.failure] at refused
  | _ => cases refused

end Value

namespace ProgramSession

/-- What an answer about a duration should be: nothing, a positive finite number, or a refusal of the
decoder. -/
def Usable : Except Failure (Option Binary64) → Prop
  | .ok none => True
  | .ok (some x) => x.isFinite = true ∧ Binary64.zero.less x = true
  | .error f => f.isDecode = true

instance : ∀ answer, Decidable (Usable answer)
  | .ok none => inferInstanceAs (Decidable True)
  | .ok (some _) => inferInstanceAs (Decidable (_ ∧ _))
  | .error _ => inferInstanceAs (Decidable (_ = true))

/-- The text of an output. An empty output counts as an empty mapping. -/
def documentText (output : List UInt8) : String :=
  let text := Text.decodeLossy output
  if text.isEmpty then "\x7b\x7d" else text

/-- The document in an output. -/
def document (output : List UInt8) : Except Json.Fault Value := Json.parse (documentText output)

/-- The outputs at which a failure comes out that is none of the decoder's: documents that are no
mapping, are nested too deeply or have a numeral with too many digits, and durations that are whole
numbers out of range. -/
inductive Slips (output : List UInt8) : Failure → Prop
  | noMapping {v : Value} (parsed : document output = .ok v) (other : ∀ entries, v ≠ .map entries) :
      Slips output (.noMember v.kind "get")
  | nested (parsed : document output = .error .tooDeep) : Slips output .nestedTooDeeply
  | lengthy {n : Nat} (parsed : document output = .error (.tooManyDigits n)) :
      Slips output (.tooManyDigits n)
  | large {v : Value} {n : Int} (parsed : document output = .ok v)
      (held : (v.member? "format").bind (·.member? "duration") = some (.int n))
      (outside : Binary64.ofInt? n = none) : Slips output .numberTooLarge

variable {output : List UInt8} {f : Failure} {v : Value} {s : ProgramSession} {run : ProgramRun}

/-! ### Outputs -/

/-- None of these failures is the decoder's. -/
theorem Slips.not_decode (slips : Slips output f) : f.isDecode = false := by
  cases slips <;> rfl

/-- A duration out of range is refused, and any other value that is no number counts as none. -/
theorem usable_duration (v : Value) : (∃ n, v = .int n ∧ Binary64.ofInt? n = none) ∨
    Usable (match v.toReal with
      | .error .numberTooLarge => .error .numberTooLarge
      | .error _ => .ok none
      | .ok x => .ok (if x.isFinite && Binary64.zero.less x then some x else none)) := by
  cases converted : v.toReal with
  | ok x =>
    refine .inr ?_
    dsimp only
    split
    · next good => simpa [Usable] using good
    · trivial
  | error f =>
    by_cases large : f = .numberTooLarge
    · exact .inl (Value.eq_int_of_toReal (large ▸ converted))
    · refine .inr ?_
      split
      · next same => exact absurd (Except.error.inj same) large
      · trivial
      · next same => cases same

/-- An output gives a usable answer, or it slips. -/
theorem usable_or_slips (output : List UInt8) :
    Usable (probedDuration output) ∨ ∃ f, Slips output f := by
  unfold probedDuration
  dsimp only
  split
  · next parsed => exact .inr ⟨_, .nested parsed⟩
  · next n parsed => exact .inr ⟨_, .lengthy parsed⟩
  · exact .inl rfl
  · next entries parsed =>
    split
    · exact .inl trivial
    · next v held =>
      rcases usable_duration v with ⟨n, rfl, outside⟩ | usable
      · exact .inr ⟨_, .large parsed held outside⟩
      · exact .inl usable
  · next v other parsed => exact .inr ⟨_, .noMapping parsed other⟩

/-- What a document gives. -/
theorem probedDuration_eq (output : List UInt8) : probedDuration output =
    match document output with
    | .error .tooDeep => .error .nestedTooDeeply
    | .error (.tooManyDigits n) => .error (.tooManyDigits n)
    | .error fault => .error (.decode (.invalidProbe (fault.message (documentText output).toList)))
    | .ok (.map entries) =>
      match ((Value.map entries).member? "format").bind (·.member? "duration") with
      | none => .ok none
      | some v =>
        match v.toReal with
        | .error .numberTooLarge => .error .numberTooLarge
        | .error _ => .ok none
        | .ok x => .ok (if x.isFinite && Binary64.zero.less x then some x else none)
    | .ok v => .error (.noMember v.kind "get") := rfl

theorem probed_of_tooLarge {duration : Value} (parsed : document output = .ok v)
    (held : (v.member? "format").bind (·.member? "duration") = some duration)
    (refused : duration.toReal = .error .numberTooLarge) :
    probedDuration output = .error .numberTooLarge := by
  rw [probedDuration_eq, parsed]
  cases v with
  | map entries => simp only [held, refused]
  | _ => cases held

/-- If an output slips, its failure comes out. -/
theorem Slips.probed (slips : Slips output f) : probedDuration output = .error f := by
  cases slips with
  | noMapping parsed other => rw [probedDuration_eq, parsed]; simp only
  | nested parsed => rw [probedDuration_eq, parsed]
  | lengthy parsed => rw [probedDuration_eq, parsed]
  | large parsed held outside =>
    refine probed_of_tooLarge parsed held ?_
    rw [Value.toReal_eq_real (by rintro _ ⟨⟩), Value.real_eq_tooLarge rfl]
    exact outside

/-- An output slips exactly if a failure comes out that is none of the decoder's. -/
theorem slips_iff : Slips output f ↔ probedDuration output = .error f ∧ f.isDecode = false := by
  constructor
  · intro slips
    exact ⟨slips.probed, slips.not_decode⟩
  · rintro ⟨refused, foreign⟩
    rcases usable_or_slips output with usable | ⟨g, slips⟩
    · rw [refused, Usable, foreign] at usable
      cases usable
    · rw [slips.probed] at refused
      exact Except.error.inj refused ▸ slips

instance : Decidable (Slips output f) := decidable_of_iff _ slips_iff.symm

/-! ### Programs that have ended -/

/-- What a session answers once the program has ended. -/
theorem loadMetadata_of_started (opened : s.closed = false) (held : s.contentClosed = false)
    (started : run.missing = false) : (s.loadMetadata run).result =
      if run.meanwhile = .sessionCloses then .error (.decode .sessionClosed)
      else if run.code ≠ 0 then .error (.decode (failureOf s.tools.prober run))
      else probedDuration run.output := by
  have checked : s.checkOpen = .ok () := by simp [checkOpen, opened, held]
  unfold loadMetadata runProgram
  simp only [checked, started, Bool.false_eq_true, if_false]
  cases during : run.meanwhile with
  | sessionCloses => simp [meanwhile, close, outputOf]
  | nothing | contentCloses =>
    by_cases failed : run.code = 0
    · simp [meanwhile, outputOf, opened, failed]
    · simp [meanwhile, outputOf, opened, failed]
      rfl

/-- Whatever a program does that has been started over open content: the answer about the duration is
usable unless the program ends well, with the session open, and its output slips. What comes out then
is no refusal of the decoder. -/
theorem probe_usable_iff (opened : s.closed = false) (held : s.contentClosed = false)
    (started : run.missing = false) :
    (Usable (s.loadMetadata run).result ↔
      run.meanwhile = .sessionCloses ∨ run.code ≠ 0 ∨ ∀ f, ¬ Slips run.output f) ∧
    (run.meanwhile ≠ .sessionCloses → run.code = 0 → ∀ f, Slips run.output f →
      (s.loadMetadata run).result = .error f ∧ f.isDecode = false) := by
  rw [loadMetadata_of_started opened held started]
  refine ⟨?_, fun stays ended f slips => ?_⟩
  · by_cases closes : run.meanwhile = .sessionCloses
    · simp [closes, Usable, Failure.isDecode]
    by_cases failed : run.code ≠ 0
    · simp [closes, failed, Usable, Failure.isDecode]
    rw [if_neg closes, if_neg failed]
    constructor
    · intro usable
      refine .inr (.inr fun f slips => ?_)
      rw [slips.probed, Usable, slips.not_decode] at usable
      cases usable
    · rintro (closes' | failed' | clean)
      · exact absurd closes' closes
      · exact absurd failed' failed
      · exact (usable_or_slips run.output).resolve_right fun ⟨f, slips⟩ => clean f slips
  · rw [if_neg stays, if_neg (by simp [ended])]
    exact ⟨slips.probed, slips.not_decode⟩

/-- A session that has just been opened. -/
def fresh : ProgramSession := { tools := ⟨"ffmpeg", "ffprobe"⟩, path := Path.ofText "clip.mp4" }

/-- A program that writes no mapping. -/
theorem probe_usable_iff_null :
    let run : ProgramRun := { output := "null".toUTF8.toList }
    fresh.closed = false ∧ fresh.contentClosed = false ∧ run.missing = false ∧
      run.meanwhile ≠ .sessionCloses ∧ run.code = 0 ∧ Slips run.output (.noMember "NoneType" "get") ∧
      ¬ Usable (fresh.loadMetadata run).result ∧
      (fresh.loadMetadata run).result = .error (.noMember "NoneType" "get") := by
  intro run
  have slips : Slips run.output (.noMember "NoneType" "get") := by decide +kernel
  have started : run.missing = false := rfl
  have answer := probe_usable_iff (s := fresh) rfl rfl started
  refine ⟨rfl, rfl, rfl, nofun, rfl, slips, fun usable => ?_, (answer.2 nofun rfl _ slips).1⟩
  rcases answer.1.1 usable with closes | failed | clean
  · cases closes
  · exact failed rfl
  · exact clean _ slips

/-- A program that writes an empty list ends well, and yet the decoder does not refuse its output. -/
theorem empty_list_is_not_refused :
    let run : ProgramRun := { output := "[]".toUTF8.toList }
    fresh.closed = false ∧ fresh.contentClosed = false ∧ run.missing = false ∧
      (fresh.loadMetadata run).result = .error (.noMember "list" "get") ∧
      ¬ Usable (fresh.loadMetadata run).result := by
  decide +kernel

end ProgramSession

end VideoCatalog
