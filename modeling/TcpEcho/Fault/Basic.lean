import TcpEcho.Fault.Number
import TcpEcho.Text.Quoted
/- Failures of input and output. -/
namespace TcpEcho

/-- A failure is known by its kind alone, by a kind with words of its own or of the library
that raises it, or by a number of the operating system. -/
inductive Fault where
  | bare (kind : FaultKind)
  | custom (kind : FaultKind) (message : String)
  | fixed (kind : FaultKind) (message : String)
  | system (number : Int)
deriving DecidableEq, Repr

namespace Fault

def kind : Fault → FaultKind
  | .bare k => k
  | .custom k _ => k
  | .fixed k _ => k
  | .system n => SystemError.kind n

def isDisconnect (f : Fault) : Bool := f.kind.isDisconnect

def isInterrupt (f : Fault) : Bool := f.kind = .interrupted

def text : Fault → String
  | .bare k => k.description
  | .custom _ m => m
  | .fixed _ m => m
  | .system n => SystemError.text n ++ " (os error " ++ Decimal.signedText n ++ ")"

def dump : Fault → String
  | .bare k => "Kind(" ++ k.name ++ ")"
  | .custom k m => "Custom \x7b kind: " ++ k.name ++ ", error: " ++ Quoted.encode m ++ " \x7d"
  | .fixed k m => "Error \x7b kind: " ++ k.name ++ ", message: " ++ Quoted.encode m ++ " \x7d"
  | .system n =>
    "Os \x7b code: " ++ Decimal.signedText n ++ ", kind: " ++ (SystemError.kind n).name ++
      ", message: " ++ Quoted.encode (SystemError.text n) ++ " \x7d"

def connectionReset : Fault := .system 104
def brokenPipe : Fault := .system 32
def timedOut : Fault := .system 110
def wouldBlock : Fault := .system 11
def tooManyOpenFiles : Fault := .system 24
def connectionRefused : Fault := .system 111
def notConnected : Fault := .system 107
def permissionDenied : Fault := .system 13
def addressInUse : Fault := .system 98
def noSuchFile : Fault := .system 2
def notADirectory : Fault := .system 20
def isADirectory : Fault := .system 21
def fileNameTooLong : Fault := .system 36

/-- A name for the operating system with a character in it that would end it. -/
def nulByte : Fault := .fixed .invalidInput "file name contained an unexpected NUL byte"

def cutShort : Fault := .fixed .unexpectedEof "failed to fill whole buffer"

end Fault
end TcpEcho
