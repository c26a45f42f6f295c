import FuzzHarness.Log.Pattern.Admission

/-!
Which diagnostics are written: levels, and filters over the names of their origins and over their
texts.

A filter is a list of directives, each a threshold for all origins or for those whose name begins
with a given text. Of the directives that fit an origin the longest decides; with none, nothing is
written. A filter may also name a pattern, and then only diagnostics whose text holds it are
written.
-/

namespace FuzzHarness.Log

inductive Level where
  | error
  | warn
  | info
  | debug
  deriving DecidableEq, Repr

namespace Level

def rank : Level → Nat
  | .error => 1
  | .warn => 2
  | .info => 3
  | .debug => 4

def label : Level → String
  | .error => "ERROR"
  | .warn => "WARN "
  | .info => "INFO "
  | .debug => "DEBUG"

end Level

def everything : Nat := 5

def threshold? (word : List Char) : Option Nat :=
  match String.ofList (word.map Char.toLower) with
  | "off" => some 0
  | "error" => some 1
  | "warn" => some 2
  | "info" => some 3
  | "debug" => some 4
  | "trace" => some everything
  | _ => none

structure Directive where
  scope : Option String
  threshold : Nat
  deriving DecidableEq, Repr

namespace Directive

def scopeSize (d : Directive) : Nat :=
  match d.scope with
  | some s => s.utf8ByteSize
  | none => 0

def covers (d : Directive) (origin : String) : Bool :=
  match d.scope with
  | some s => s.toList.isPrefixOf origin.toList
  | none => true

/-- Reads one directive: a threshold, a scope, or a scope and a threshold with `=` between them.
What is no directive is answered with the part to complain about. -/
def parse (text : List Char) : Except String Directive :=
  match text.splitOn '=' with
  | [word] =>
    match threshold? word with
    | some threshold => .ok ⟨none, threshold⟩
    | none => .ok ⟨some (String.ofList word), everything⟩
  | [scope, word] =>
    let word := Text.trim word
    if word.isEmpty then .ok ⟨some (String.ofList scope), everything⟩
    else match threshold? word with
    | some threshold => .ok ⟨some (String.ofList scope), threshold⟩
    | none => .error (String.ofList word)
  | _ => .error (String.ofList text)

end Directive

inductive Complaint where
  | directive (part : String)
  | patterns (whole : String)
  | pattern (written : List Char) (refusal : Refusal)

def Complaint.message : Complaint → String
  | .directive part => "warning: invalid logging spec '" ++ part ++ "', ignoring it"
  | .patterns whole =>
      "warning: invalid logging spec '" ++ whole ++ "', ignoring it (too many '/'s)"
  | .pattern written refusal => "warning: invalid regex filter - " ++ refusal.message written

structure Filter where
  directives : List Directive
  pattern : Option Pattern

namespace Filter

/-- A later directive takes the place of an earlier one with its scope. -/
def addDirective (directives : List Directive) (d : Directive) : List Directive :=
  if directives.any (·.scope = d.scope) then directives.map fun e =>
    if e.scope = d.scope then d else e
  else directives ++ [d]

/-- The directives in effect; without any, errors alone are written. -/
def arrange (directives : List Directive) : List Directive :=
  match directives.foldl addDirective [] with
  | [] => [⟨none, Level.error.rank⟩]
  | ds => ds.mergeSort fun d e => d.scopeSize ≤ e.scopeSize

def readDirectives (text : List Char) : List Directive × List Complaint :=
  let parts := ((text.splitOn ',').map Text.trim).filter fun part => !part.isEmpty
  let read := parts.map Directive.parse
  (arrange (read.filterMap fun r => r.toOption),
    read.filterMap fun r => match r with
      | .error bad => some (.directive bad)
      | .ok _ => none)

def parse (text : String) : Filter × List Complaint :=
  match text.toList.splitOn '/' with
  | [directives] =>
    let (directives, complaints) := readDirectives directives
    (⟨directives, none⟩, complaints)
  | [directives, written] =>
    let (directives, complaints) := readDirectives directives
    match Pattern.read written with
    | .ok p => (⟨directives, some p⟩, complaints)
    | .error r => (⟨directives, none⟩, complaints ++ [.pattern written r])
  | _ => (⟨arrange [], none⟩, [.patterns text])

def allows (f : Filter) (level : Level) (origin text : String) : Bool :=
  match f.directives.reverse.find? (·.covers origin) with
  | some d => level.rank ≤ d.threshold && f.pattern.all (·.occursIn text.toList)
  | none => false

end Filter

end FuzzHarness.Log
