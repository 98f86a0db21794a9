import TcpEcho.Event.Directive
/- Filters of the log: lists of directives, of which the one with the most detail decides. -/
namespace TcpEcho

structure Filter where
  directives : List Directive
deriving DecidableEq, Repr

namespace Filter

/-- Directives are parted by commas. -/
def pieces (s : String) : List (List Char) :=
  (s.toList.splitOnP (· = ',')).filter (· ≠ [])

def parse? (s : String) : Option Filter :=
  ((pieces s).mapM fun p => (Directive.parse p).toOption).map Filter.mk

/-- Leaves out the pieces that are no directives, with a notice about each. -/
def parseLeniently (s : String) : Filter × List String :=
  let read := (pieces s).map fun p => (p, Directive.parse p)
  (⟨read.filterMap fun r => r.2.toOption⟩,
    read.filterMap fun r =>
      match r.2 with
      | .error e => some ("ignoring `" ++ String.ofList r.1 ++ "`: " ++ e.text)
      | .ok _ => none)

/-- The variable of the environment holds if it is set and free of faults, else the level of
the settings. -/
def choose (setting : Option String) (level : String) : Filter × List String :=
  match setting.bind parse? with
  | some f => (f, [])
  | none => parseLeniently level

/-- The directive that decides about an event; of two with the same detail the later one.
Where there are no directives at all, errors are shown. -/
def deciding? (f : Filter) (source : String) (e : Event) : Option Directive :=
  let directives := if f.directives = [] then [{ levels := 1 }] else f.directives
  (directives.filter fun d => d.isAboutEvents && d.covers source e).foldl
    (fun best d => if best.all d.isAsDetailedAs then some d else best) none

def shows (f : Filter) (runtime : Runtime) (e : Event) : Bool :=
  (f.deciding? (e.source runtime) e).any fun d => e.level.rank ≤ d.levels

def select (f : Filter) (runtime : Runtime) (es : List Event) : List Event :=
  es.filter (f.shows runtime)

end Filter
end TcpEcho
