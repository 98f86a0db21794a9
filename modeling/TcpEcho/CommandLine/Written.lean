import TcpEcho.CommandLine.Reader
/- Command lines as they are written: the ways of giving an option its value, and the words
   that say the same as given options. -/
namespace TcpEcho.CommandLine

/-- Behind the name with an equals sign, in the word after it, or behind the letter in the
same word, with an equals sign or without. -/
inductive Spelling where
  | nameEquals
  | nameApart
  | letterApart
  | letterJoined
  | letterEquals
deriving DecidableEq, Repr

structure Mention where
  option : OptionName
  value : Word
  spelling : Spelling
deriving DecidableEq, Repr

namespace Mention

/-- Values that cannot be taken for something else. -/
def isPlain (v : Word) : Bool := v ≠ [] && v.head? ≠ some dash && v.head? ≠ some equals

def fits (m : Mention) : Bool :=
  match m.spelling with
  | .nameEquals => true
  | .nameApart => isPlain m.value
  | _ => m.option.short.isSome && isPlain m.value

def name (o : OptionName) : Word := dash :: dash :: Utf8.encode o.long

def letter (o : OptionName) : Word := dash :: (o.short.elim [] fun c => Utf8.encode c.toString)

def words (m : Mention) : List Word :=
  match m.spelling with
  | .nameEquals => [name m.option ++ equals :: m.value]
  | .nameApart => [name m.option, m.value]
  | .letterApart => [letter m.option, m.value]
  | .letterJoined => [letter m.option ++ m.value]
  | .letterEquals => [letter m.option ++ equals :: m.value]

end Mention

/-- An option with the word for its value. -/
abbrev Given := OptionName × Word

def ofText (s : String) : Word := Utf8.encode s

namespace Options

def given (o : Options) : List Given :=
  (o.config.map fun x => (.config, x)).toList ++
  (o.host.map fun x => (.host, ofText x)).toList ++
  (o.port.map fun x => (.port, ofText (Decimal.text x.toNat))).toList ++
  (o.chunkSize.map fun x => (.chunkSize, ofText (Decimal.text x.toNat))).toList ++
  (o.backlog.map fun x => (.backlog, ofText (Decimal.signedText x.toInt))).toList ++
  (o.runtime.map fun x => (.runtime, ofText x.word)).toList ++
  (o.maxConnections.map fun x => (.maxConnections, ofText (Decimal.text x.toNat))).toList ++
  (o.logLevel.map fun x => (.logLevel, ofText x)).toList

end Options

namespace Probe

def given (p : Probe) : List Given :=
  [(.target, ofText p.target), (.message, ofText p.message)]

/-- The options of a probe that must be given, since their values are not the usual ones. -/
def needed (p : Probe) : List Given := p.given.filter fun g => g ∉ given {}

end Probe

def Mention.given (m : Mention) : Given := (m.option, m.value)

/-- The words of a command line with options of the server, and with the probe command and its
options if it is asked for. -/
def written (server : List Mention) (probe : Option (List Mention)) : List Word :=
  server.flatMap Mention.words ++
    probe.elim [] fun ms => probeWord :: ms.flatMap Mention.words

/-- Mentions that say what the options are, in any order and spelling. -/
structure Options.IsMentioned (o : Options) (server : List Mention)
    (probe : Option (List Mention)) : Prop where
  server_fits : ∀ m ∈ server, m.fits
  server_perm : (server.map Mention.given).Perm o.given
  probe_fits : ∀ ms ∈ probe, ∀ m ∈ ms, m.fits
  probe_isSome : probe.isSome = o.probe.isSome
  probe_nodup : ∀ ms ∈ probe, (ms.map Mention.option).Nodup
  probe_given : ∀ p ∈ o.probe, ∀ ms ∈ probe,
    (∀ g ∈ p.needed, g ∈ ms.map Mention.given) ∧ ∀ g ∈ ms.map Mention.given, g ∈ p.given

end TcpEcho.CommandLine
