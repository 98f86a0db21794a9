import TcpEcho.CommandLine.Options
import TcpEcho.Text.Plain
import TcpEcho.Decimal
/- Command lines that are not accepted, and what is said about them. -/
namespace TcpEcho.CommandLine

inductive NumberFault where
  | empty
  | invalidDigit
  | tooLarge
  | tooSmall
  | outside (n low high : Int)
deriving DecidableEq, Repr

inductive UsageError where
  | unknownArgument (shown : String)
  | unknownCommand (shown : String)
  | missingValue (o : OptionName)
  | repeated (o : OptionName)
  | notText
  | unknownRuntime (value : String)
  | badNumber (o : OptionName) (value : String) (why : NumberFault)
  | unexpectedValue (flag value : String)
deriving DecidableEq, Repr

def NumberFault.message : NumberFault → String
  | .empty => "cannot parse integer from empty string"
  | .invalidDigit => "invalid digit found in string"
  | .tooLarge => "number too large to fit in target type"
  | .tooSmall => "number too small to fit in target type"
  | .outside n low high =>
    Decimal.signedText n ++ " is not in " ++ Decimal.signedText low ++ "..=" ++
      Decimal.signedText high

namespace UsageError

def kind : UsageError → String
  | .unknownArgument _ => "UnknownArgument"
  | .unknownCommand _ => "InvalidSubcommand"
  | .missingValue _ => "InvalidValue"
  | .repeated _ => "ArgumentConflict"
  | .notText => "InvalidUtf8"
  | .unknownRuntime _ => "InvalidValue"
  | .badNumber _ _ _ => "ValueValidation"
  | .unexpectedValue _ _ => "TooManyValues"

def text : UsageError → String
  | .unknownArgument shown => "unexpected argument '" ++ shown ++ "' found"
  | .unknownCommand shown => "unrecognized subcommand '" ++ shown ++ "'"
  | .missingValue o => "a value is required for '" ++ o.usage ++ "' but none was supplied"
  | .repeated o => "the argument '" ++ o.usage ++ "' cannot be used multiple times"
  | .notText => "invalid UTF-8 was detected in one or more arguments"
  | .unknownRuntime value =>
    "invalid value '" ++ value ++ "' for '" ++ OptionName.runtime.usage ++ "'"
  | .badNumber o value why =>
    "invalid value '" ++ value ++ "' for '" ++ o.usage ++ "': " ++ why.message
  | .unexpectedValue flag value =>
    "unexpected value '" ++ value ++ "' for '" ++ flag ++ "' found; no more were expected"

def message (e : UsageError) : String := Plain.firstLine (Plain.strip ("error: " ++ e.text))

end UsageError
end TcpEcho.CommandLine
