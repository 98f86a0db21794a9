import TcpEcho.CommandLine.Reader
import TcpEcho.Listener
import TcpEcho.Event.Filter
import TcpEcho.Probe.Basic
/- The program as a whole: what a command line makes it do, what it prints, and how it
   ends, if it ends. -/
namespace TcpEcho

open CommandLine (Word Options UsageError Stop)

/-- What the program meets outside: files to read, a host to serve on, the setting of the log
in the environment, and names and peers for a probe. -/
structure World where
  read : FileReader := fun _ => .error .noSuchFile
  host : Host := {}
  logSetting : Option String := none
  net : Network := ⟨fun _ _ => .ok [], fun _ => .error .connectionRefused⟩

inductive Failure where
  | load (e : LoadError)
  | bind (e : BindError)
  | host (f : Fault)
  | probe (f : Fault)
deriving DecidableEq, Repr

def Failure.dump : Failure → String
  | .load e => e.dump
  | .bind e => e.dump
  | .host f => f.dump
  | .probe f => f.dump

/-- How a command line comes out: as a page of help or the version, as a mistake in its words,
as the verdict of a probe, as a failure, as a broken assertion with its message, or as a server
that goes on until it is stopped. -/
inductive Upshot where
  | page (text : String)
  | misuse (e : UsageError)
  | verdict (matched : Bool)
  | failure (why : Failure)
  | panic (message : String)
  | serving (settings : Settings) (server : Server)
deriving DecidableEq, Repr

def Obstacle.upshot : Obstacle → Upshot
  | .bind e => .failure (.bind e)
  | .host f => .failure (.host f)
  | .tooManyPermits => .panic ("a semaphore may not have more than MAX_PERMITS permits (" ++
      Decimal.text Settings.permitLimit.toNat ++ ")")

/-- The number with which the program ends. A server has none, since it does not end. -/
def Upshot.exitCode? : Upshot → Option UInt8
  | .page _ => some 0
  | .misuse _ => some 2
  | .verdict matched => some (if matched then 0 else 1)
  | .failure _ => some 1
  | .panic _ => some 101
  | .serving _ _ => none

/-- A run of the program: the settings files that it opened, the filter of its log with the
notices about it, the events that it logged, the calls of a probe, and how it came out. -/
structure Execution where
  opened : List Word := []
  filter : Filter := ⟨[]⟩
  notices : List String := []
  events : List Event := []
  calls : List Call := []
  upshot : Upshot

namespace Execution

def ofStop : Stop → Execution
  | .usage e => { upshot := .misuse e }
  | .page p => { upshot := .page p.text }
  | .version => { upshot := .page CommandLine.versionText }

/-- A probe needs no settings but the level of the log. -/
def probing (w : World) (logLevel : Option String) (p : CommandLine.Probe) : Execution :=
  let (filter, notices) := Filter.choose w.logSetting (logLevel.getD "info")
  let probe := Probe.check p.target p.message w.net
  { filter, notices
    events := probe.log
    calls := probe.calls
    upshot := match probe.result with
      | .ok matched => .verdict matched
      | .error f => .failure (.probe f) }

/-- What is logged before the listening socket is taken. -/
def greeting (s : Settings) : List Event :=
  .starting s.host s.port s.chunkSize s.runtime ::
    match s.runtime with
    | .serial => []
    | .concurrent => [.concurrentRuntime s.maxConnections]

def serving (w : World) (o : Options) : Execution :=
  let ⟨opened, loaded⟩ := Settings.loading o w.read
  match loaded with
  | .error e => { opened, upshot := .failure (.load e) }
  | .ok s =>
    let (filter, notices) := Filter.choose w.logSetting s.logLevel
    match Server.launch w.host s with
    | .error obstacle =>
      { opened, filter, notices, events := greeting s, upshot := obstacle.upshot }
    | .ok (place, server) =>
      { opened, filter, notices
        events := greeting s ++ [.listening place.text]
        upshot := .serving s server }

def run (w : World) (words : List Word) : Execution :=
  match CommandLine.parse words with
  | .error stop => ofStop stop
  | .ok o =>
    match o.probe with
    | some p => probing w o.logLevel p
    | none => serving w o

def runtime (x : Execution) : Runtime :=
  match x.upshot with
  | .serving s _ => s.runtime
  | _ => .serial

def shown (x : Execution) : List Event := x.filter.select x.runtime x.events

def output (x : Execution) : String :=
  match x.upshot with
  | .page text => text
  | _ => String.join (x.shown.map fun e => e.line ++ "\n")

/-- What goes to standard error, but for the place in the code where an assertion broke. -/
def complaint (x : Execution) : String :=
  let notices := String.join (x.notices.map (· ++ "\n"))
  match x.upshot with
  | .misuse e => notices ++ e.message ++ "\n"
  | .failure why => notices ++ "Error: " ++ why.dump ++ "\n"
  | .panic message => notices ++ message ++ "\n"
  | _ => notices

end Execution
end TcpEcho
