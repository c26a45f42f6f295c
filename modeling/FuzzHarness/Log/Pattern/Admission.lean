import FuzzHarness.Log.Pattern.Meaning
import FuzzHarness.Log.Pattern.Reader
import FuzzHarness.Log.Pattern.Plan

/-!
Which writings are patterns that a text can be searched for, and why others are not.
-/

namespace FuzzHarness.Log

inductive Refusal where
  | fault (f : Fault)
  | tooLarge
  | wideWords

def Refusal.message (r : Refusal) (written : List Char) : String :=
  match r with
  | .fault f => f.message written
  | .tooLarge => "Compiled regex exceeds size limit of " ++ toString roomLimit ++ " bytes."
  | .wideWords => "error building NFA"

def Pattern.ofWriting (written : List Char) : Except Fault Pattern :=
  match Phrase.read written with
  | .error f => .error f
  | .ok p =>
    match p.deeper? depthLimit with
    | some span => .error ⟨.tooDeep, span, none⟩
    | none => (p.meaning .default).map (·.1)

def Pattern.hasRoom (p : Pattern) (backward : Bool) : Bool :=
  p.fits backward || p.isTexts

/-- Reads a pattern. It is laid out forwards before its edges are looked at, and backwards after
that. -/
def Pattern.read (written : List Char) : Except Refusal Pattern :=
  match Pattern.ofWriting written with
  | .error f => .error (.fault f)
  | .ok p =>
    if !p.hasRoom false then .error .tooLarge
    else if p.asksWideWords then .error .wideWords
    else if !p.hasRoom true then .error .tooLarge
    else .ok p

end FuzzHarness.Log
