import TcpEcho.Decimal
import TcpEcho.Settings.Basic
import TcpEcho.Toml.Text
/- Settings files as they are written: sections under their headers, each with one entry a
   line, and which texts say the same as given settings. -/
namespace TcpEcho.Toml

def codeDigits (n : Nat) : List Char :=
  [n / 4096 % 16, n / 256 % 16, n / 16 % 16, n % 16].map Nat.digitChar

/-- Quotes, backslashes and control characters are escaped. -/
def escaped (c : Char) : List Char :=
  if c = '"' then ['\\', '"']
  else if c = '\\' then ['\\', '\\']
  else if c.toNat < 0x20 ∨ c.toNat = 0x7F then '\\' :: 'u' :: codeDigits c.toNat
  else [c]

def quoted (s : String) : List Char := '"' :: s.toList.flatMap escaped ++ ['"']

abbrev Entry := String × List Char

def Entry.line (e : Entry) : List Char := e.1.toList ++ [' ', '=', ' '] ++ e.2 ++ ['\n']

abbrev Section := String × List Entry

def Section.lines (s : Section) : List Char :=
  '[' :: s.1.toList ++ [']', '\n'] ++ s.2.flatMap Entry.line

def written (ss : List Section) : String := String.ofList (ss.flatMap Section.lines)

end TcpEcho.Toml

namespace TcpEcho

open Toml (Entry Section quoted)

def ServerSection.entries (s : ServerSection) : List Entry := [
  ("host", quoted s.host),
  ("port", Decimal.digits s.port.toNat),
  ("backlog", Decimal.signedDigits s.backlog.toInt),
  ("runtime", quoted s.runtime.word),
  ("max_connections", Decimal.digits s.maxConnections.toNat)
]

def RelaySection.entries (s : RelaySection) : List Entry :=
  [("chunk_size", Decimal.digits s.chunkSize.toNat)]

def LoggingSection.entries (s : LoggingSection) : List Entry := [("level", quoted s.level)]

namespace FileSettings

/-- Sections that say what the settings are, in any order and with the entries of each in any
order. -/
def IsArranged (f : FileSettings) (ss : List Section) : Prop :=
  ∃ server relay logging : List Entry,
    server.Perm f.server.entries ∧ relay.Perm f.relay.entries ∧ logging.Perm f.logging.entries ∧
      ss.Perm [("server", server), ("relay", relay), ("logging", logging)]

/-- Whole numbers of a settings file have 63 bits and a sign. -/
def IsWritable (f : FileSettings) : Prop :=
  f.server.maxConnections < 0x8000000000000000 ∧ f.relay.chunkSize < 0x8000000000000000

def text (f : FileSettings) : String :=
  Toml.written [("server", f.server.entries), ("relay", f.relay.entries),
    ("logging", f.logging.entries)]

end FileSettings
end TcpEcho
