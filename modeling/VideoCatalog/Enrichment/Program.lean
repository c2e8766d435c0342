import VideoCatalog.Enrichment.Extraction
import VideoCatalog.Json.Reader
import VideoCatalog.Text.Utf8

/-!
# Decoding with programs

Metadata and frames come from two programs, which are started anew for every stage. Closing
the session stops the program that is running and refuses everything afterwards.

* `ProgramRun`: what a started program does.
* `Tools`: the names of the two programs, and whether they can be found.
* `ProgramSession`: a decode session over some content.
* `ProgramSession.loadMetadata`, `seek`, `captureFrame`, `close`: the stages.
* `Tools.backend`: the sessions whose programs behave as foretold.
-/

namespace VideoCatalog

/-- What else happens while a program runs. -/
inductive Meanwhile where
  | nothing
  | sessionCloses
  | contentCloses
deriving DecidableEq, Repr

/-- What a started program does: its output, the size of the output if it is a picture, and its
exit code. -/
structure ProgramRun where
  missing : Bool := false
  hangs : Bool := false
  output : List UInt8 := []
  picture : Option Frame := none
  errors : List UInt8 := []
  code : Int := 0
  meanwhile : Meanwhile := .nothing
deriving Repr, Inhabited

/-- The program for frames and the program for metadata. -/
structure Tools where
  framer : String
  prober : String
deriving DecidableEq, Repr, Inhabited

namespace Tools

/-- The first value that counts as set, as text, or a default name. -/
def choose (given configured : Value) (default : String) : String :=
  if given.truthy then given.plain else if configured.truthy then configured.plain else default

/-- The tools that are given, configured, or usual. -/
def ofConfiguration (config : Option Configuration) (framer prober : Value) : Tools where
  framer := choose framer (settingOr config "enrichment" "ffmpeg_path" .null) "ffmpeg"
  prober := choose prober (settingOr config "enrichment" "ffprobe_path" .null) "ffprobe"

/-- Whether a program is there. Programs are named with their directory; no others are
searched for. -/
def found (programs : List String) (name : String) : Bool :=
  let p := Path.ofText name
  name.toList.contains '/' && name.toList.getLast? != some '/' &&
    programs.contains (Path.mk "/" (FileTree.collapse p.names)).text && p.isAbsolute

/-- Whether both programs are there. -/
def available (programs : List String) (tools : Tools) : Bool :=
  found programs tools.framer && found programs tools.prober

/-- Whether programs named by values are there. The second name counts only if the first
program is there. -/
def availableAs (programs : List String) : List Value → Except Failure Bool
  | [] => .ok (available programs ⟨"ffmpeg", "ffprobe"⟩)
  | [framer] => availableTwo framer (.text "ffprobe")
  | [framer, prober] => availableTwo framer prober
  | _ => .error (.unsuitable "list" "a pair of programs")
where
  /-- The same for two names. -/
  availableTwo (framer prober : Value) : Except Failure Bool :=
    match framer, prober with
    | .text f, .text p => .ok (found programs f && found programs p)
    | .text f, v => if found programs f then .error (.unsuitable v.kind "a program") else .ok false
    | v, _ => .error (.unsuitable v.kind "a program")

/-- The command that asks for the duration of a file. -/
def probeCommand (tools : Tools) (path : Path) : List String :=
  [tools.prober, "-v", "error", "-show_entries", "format=duration", "-of", "json", path.text]

/-- The text of a position, in seconds with three decimals. -/
def positionText (position : Binary64) : String := position.fixed 3

/-- The command that asks for the frame of a file at a position. -/
def frameCommand (tools : Tools) (path : Path) (position : Binary64) : List String :=
  [tools.framer, "-v", "error", "-ss", positionText position, "-i", path.text, "-frames:v", "1",
    "-f", "image2pipe", "-vcodec", "png", "-"]

end Tools

/-- The duration in the output of the program for metadata: a positive finite number, or
nothing. -/
def probedDuration (output : List UInt8) : Except Failure (Option Binary64) :=
  let text := Text.decodeLossy output
  let document := if text.isEmpty then "\x7b\x7d" else text
  match Json.parse document with
  | .error .tooDeep => .error .nestedTooDeeply
  | .error (.tooManyDigits n) => .error (.tooManyDigits n)
  | .error fault => .error (.decode (.invalidProbe (fault.message document.toList)))
  | .ok (.map entries) =>
    match ((Value.map entries).member? "format").bind (·.member? "duration") with
    | none => .ok none
    | some v =>
      match v.toReal with
      | .error .numberTooLarge => .error .numberTooLarge
      | .error _ => .ok none
      | .ok x => .ok (if x.isFinite && Binary64.zero.less x then some x else none)
  | .ok v => .error (.noMember v.kind "get")

/-- A decode session over the content of a file. -/
structure ProgramSession where
  tools : Tools
  path : Path
  position : Binary64 := .zero
  closed : Bool := false
  contentClosed : Bool := false
deriving Repr

/-- What a stage of a session leaves: the session, its result, and the command started. -/
structure ProgramSession.Step (α : Type) where
  session : ProgramSession
  result : Except Failure α
  command : Option (List String) := none

namespace ProgramSession

/-- Opens a session over content, which must not be closed. -/
def start (tools : Tools) (path : Path) (contentClosed : Bool) : Except Failure ProgramSession :=
  if contentClosed then .error (.decode (.releasedBeforeOpening path.text))
  else .ok { tools := tools, path := path }

/-- Refuses a closed session and closed content. -/
def checkOpen (s : ProgramSession) : Except Failure Unit :=
  if s.closed then .error (.decode .sessionClosed)
  else if s.contentClosed then .error (.decode .contentReleased)
  else .ok ()

/-- Closes a session. -/
def close (s : ProgramSession) : ProgramSession := { s with closed := true }

/-- What happens to a session while a program runs. -/
def meanwhile (s : ProgramSession) : Meanwhile → ProgramSession
  | .nothing => s
  | .sessionCloses => s.close
  | .contentCloses => { s with contentClosed := true }

/-- What a program says about its failure: its own report, or its exit code. -/
def failureOf (program : String) (run : ProgramRun) : DecodeFault :=
  let report := Text.trim (Text.decodeLossy run.errors)
  if report.isEmpty then .programExited (Path.ofText program).name run.code
  else .programFailed report

/-- What a program that has ended gives: its output, unless the session was closed meanwhile or the
program says that it failed. -/
def outputOf (s : ProgramSession) (program : String) (run : ProgramRun) :
    Except Failure (List UInt8) :=
  if s.closed then .error (.decode .sessionClosed)
  else if run.code ≠ 0 then .error (.decode (failureOf program run))
  else .ok run.output

/-- Runs a program to its end and gives its output. -/
def runProgram (s : ProgramSession) (command : List String) (run : ProgramRun) :
    Step (List UInt8) :=
  match s.checkOpen with
  | .error f => ⟨s, .error f, none⟩
  | .ok () =>
    let program := command.headD ""
    if run.missing then ⟨s, .error (.decode (.programMissing program)), some command⟩
    else
      let s := s.meanwhile run.meanwhile
      ⟨s, s.outputOf program run, some command⟩

/-- Asks for the duration of the content. -/
def loadMetadata (s : ProgramSession) (run : ProgramRun) : Step (Option Binary64) :=
  let step := s.runProgram (s.tools.probeCommand s.path) run
  match step.result with
  | .error f => ⟨step.session, .error f, step.command⟩
  | .ok output => ⟨step.session, probedDuration output, step.command⟩

/-- Goes to a position, which is never negative. -/
def seek (s : ProgramSession) (seconds : Value) : Step Unit :=
  match s.checkOpen with
  | .error f => ⟨s, .error f, none⟩
  | .ok () =>
    match seconds.toReal with
    | .error f => ⟨s, .error f, none⟩
    | .ok x => ⟨{ s with position := if Binary64.zero.less x then x else .zero }, .ok (), none⟩

/-- The picture that the output of a program shows. -/
def frameIn (position : Binary64) (run : ProgramRun) (output : List UInt8) :
    Except Failure Picture :=
  if output.isEmpty then .error (.decode (.noFrame (Tools.positionText position)))
  else match run.picture with
    | some frame => .ok ⟨frame, output⟩
    | none => .error (.decode (.unreadableFrame "no picture"))

/-- Asks for the frame at the position. -/
def captureFrame (s : ProgramSession) (run : ProgramRun) : Step Picture :=
  let step := s.runProgram (s.tools.frameCommand s.path s.position) run
  match step.result with
  | .error f => ⟨step.session, .error f, step.command⟩
  | .ok output => ⟨step.session, frameIn s.position run output, step.command⟩

end ProgramSession

/-- A stage of a session as a stage of decoding. A program that hangs is only ended by closing
the session. -/
def ProgramSession.Step.stage {α : Type} (step : ProgramSession.Step α) (run : ProgramRun) :
    Stage α :=
  if run.hangs && step.command.isSome && !run.missing then
    { result := .error (.decode .sessionClosed), blocks := true, command := step.command }
  else { result := step.result, command := step.command }

/-- The sessions over sources whose programs run as foretold by `probe` and `frame`. -/
def Tools.backend (tools : Tools) (probe frame : Path → ProgramRun) : Backend :=
  fun path contentClosed =>
    let probing : ProgramSession.Step (Option Binary64) :=
      ({ tools := tools, path := path } : ProgramSession).loadMetadata (probe path)
    let metadata := probing.stage (probe path)
    let later := probing.session
    { opening := (ProgramSession.start tools path contentClosed).map fun _ => ()
      metadata :=
        { result := metadata.result.map fun
            | some x => .number (.real x)
            | none => .null
          blocks := metadata.blocks, command := metadata.command }
      seek := fun position => (later.seek (.number (.real position))).stage {}
      capture := fun position =>
        (({ later with position := position }).captureFrame (frame path)).stage (frame path) }

end VideoCatalog
