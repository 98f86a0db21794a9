import TcpEcho.CommandLine.Value
import TcpEcho.CommandLine.Help
/- Command lines word by word. The value of an option may stand in the word behind it, so
   an option is judged only when the next one comes or the words end. -/
namespace TcpEcho.CommandLine

inductive Stop where
  | usage (e : UsageError)
  | page (p : Page)
  | version
deriving DecidableEq, Repr

/-- The level under way: the options judged, the one that waits to be judged with its value
if that has been seen, and whether `--` has stood. -/
structure Reading where
  draft : Draft := {}
  pending : Option (OptionName × Option Word) := none
  trailing : Bool := false
deriving DecidableEq, Repr

namespace Reading

def waiting (r : Reading) : Bool :=
  match r.pending with
  | some (_, none) => !r.trailing
  | _ => false

def settle (r : Reading) : Except UsageError Draft :=
  match r.pending with
  | none => .ok r.draft
  | some (o, none) => .error (.missingValue o)
  | some (o, some w) => r.draft.give o w

def attach (r : Reading) (o : OptionName) (w : Word) : Except UsageError Reading :=
  match r.settle with
  | .error e => .error e
  | .ok d => (d.give o w).map fun d => { draft := d }

def await (r : Reading) (o : OptionName) : Except UsageError Reading :=
  r.settle.map fun d => { draft := d, pending := some (o, none) }

/-- A request that needs no more words, unless the option before it is wrong. -/
def request (r : Reading) (s : Stop) : Stop :=
  match r.settle with
  | .error e => .usage e
  | .ok _ => s

end Reading

def Level.fullPage : Level → Page
  | .server => .full
  | .probe => .probe

def Level.briefPage : Level → Page
  | .server => .brief
  | .probe => .probe

def dash : UInt8 := 0x2D
def equals : UInt8 := 0x3D

def splitValue (w : Word) : Word × Option Word :=
  match w.span (· ≠ equals) with
  | (name, []) => (name, none)
  | (name, _ :: value) => (name, some value)

/-- A word that begins with two dashes, less the dashes. -/
def longOption (l : Level) (r : Reading) (w : Word) : Except Stop Reading :=
  let (name, value) := splitValue w
  let unknown := Stop.usage (.unknownArgument ("--" ++ Utf8.lossy name))
  match Utf8.decode? name with
  | none => .error unknown
  | some s =>
    match OptionName.ofLong? l s, value with
    | some o, some v => (r.attach o v).mapError .usage
    | some o, none => (r.await o).mapError .usage
    | none, _ =>
      if s = "help" ∨ (s = "version" ∧ l = .server) then
        match value with
        | some v => .error (.usage (.unexpectedValue ("--" ++ s) (Utf8.lossy v)))
        | none => .error (r.request (if s = "help" then .page l.fullPage else .version))
      else .error unknown

/-- The value behind a letter; an equals sign in front of it does not count. -/
def letterValue : Word → Option Word
  | [] => none
  | b :: w => if b = equals then some w else some (b :: w)

/-- A word that begins with one dash, less the dash: only its first letter can be an option,
since each takes a value or stops. -/
def shortOption (l : Level) (r : Reading) (w : Word) : Except Stop Reading :=
  match Utf8.validPart w with
  | ([], rest) => .error (.usage (.unknownArgument ("-" ++ Utf8.lossy rest)))
  | (c :: _, _) =>
    match OptionName.ofShort? l c with
    | some o =>
      match letterValue (w.drop (String.utf8EncodeChar c).length) with
      | some v => (r.attach o v).mapError .usage
      | none => (r.await o).mapError .usage
    | none =>
      if c = 'h' then .error (r.request (.page l.briefPage))
      else if c = 'V' ∧ l = .server then .error (r.request .version)
      else .error (.usage (.unknownArgument ("-" ++ String.ofList [c])))

def probeWord : Word := Utf8.encode "probe"
def helpWord : Word := Utf8.encode "help"

def helpTopic : List Word → Stop
  | [] => .page .full
  | w :: ws =>
    if w = probeWord ∨ w = helpWord then
      match ws with
      | [] => .page (if w = probeWord then .probe else .help)
      | v :: _ => .usage (.unknownCommand (Utf8.lossy v))
    else .usage (.unknownCommand (Utf8.lossy w))

/-- No command takes plain words: the first one is refused. -/
def plainWord (l : Level) (r : Reading) (w : Word) : UsageError :=
  if l = .probe ∨ (r.trailing ∧ (w = probeWord ∨ w = helpWord)) then
    .unknownArgument (Utf8.lossy w)
  else .unknownCommand (Utf8.lossy w)

def readWord (l : Level) (r : Reading) (w : Word) : Except Stop Reading :=
  if r.trailing then .error (.usage (plainWord l r w))
  else
    match w with
    | a :: b :: name =>
      if a = dash ∧ b = dash then
        if name = [] then .ok { r with trailing := true } else longOption l r name
      else if a = dash then shortOption l r (b :: name)
      else takeValue l r w
    | _ => takeValue l r w
where
  takeValue (l : Level) (r : Reading) (w : Word) : Except Stop Reading :=
    match r.waiting, r.pending with
    | true, some (o, _) => .ok { r with pending := some (o, some w) }
    | _, _ => .error (.usage (plainWord l r w))

def readProbe (r : Reading) : List Word → Except Stop Probe
  | [] => (r.settle.map Draft.probe).mapError .usage
  | w :: ws =>
    match readWord .probe r w with
    | .error s => .error s
    | .ok r => readProbe r ws

def readServer (r : Reading) : List Word → Except Stop Options
  | [] => (r.settle.map (Draft.options · none)).mapError .usage
  | w :: ws =>
    if !r.waiting && !r.trailing && w = helpWord then .error (helpTopic ws)
    else if !r.waiting && !r.trailing && w = probeWord then
      match readProbe {} ws with
      | .error s => .error s
      | .ok p => (r.settle.map (Draft.options · (some p))).mapError .usage
    else
      match readWord .server r w with
      | .error s => .error s
      | .ok r => readServer r ws

def parse (ws : List Word) : Except Stop Options := readServer {} ws

end TcpEcho.CommandLine
