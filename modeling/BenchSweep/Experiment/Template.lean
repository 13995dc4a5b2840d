import BenchSweep.Catalog.Basic
import BenchSweep.Catalog.Error
import BenchSweep.Shell.Words

/-! # Templates

    Names and arguments of experiments are templates: plain text with groups
    in braces that stand for the model, its input, or the worker count.  A
    template is read once, from left to right; what is put in for a group is
    not read again. -/

namespace BenchSweep.Template

/-! ## Section 1: The pieces of a template -/

/-- A piece of a template. -/
inductive Piece where
  /-- Text without an opening brace. -/
  | text (s : List Char)
  /-- The key between an opening brace and the first closing one. -/
  | group (key : List Char)
  /-- An opening brace that no closing one follows, and all behind it. -/
  | tail (s : List Char)
deriving DecidableEq, Repr

/-- The template text of a piece. -/
def Piece.source : Piece → List Char
  | text s => s
  | group key => '\x7b' :: key ++ ['\x7d']
  | tail s => s

/-- The pieces of a template. -/
def pieces (s : List Char) : List Piece :=
  match _h : Shell.splitAt? '\x7b' s with
  | none => [.text s]
  | some (before, after) =>
    match _h' : Shell.splitAt? '\x7d' after with
    | none => [.text before, .tail ('\x7b' :: after)]
    | some (key, rest) => .text before :: .group key :: pieces rest
termination_by s.length
decreasing_by
  have hopened := Shell.splitAt?_length _h
  have hclosed := Shell.splitAt?_length _h'
  omega

/-! ## Section 2: Values -/

/-- What the groups of a template stand for in one experiment. -/
structure Binding where
  /-- The variant whose template it is, for messages. -/
  variant : String
  model : Model
  workers : Option Nat

/-- The value of a group. -/
def Binding.value (b : Binding) (template : String) (key : List Char) :
    Except CatalogError (List Char) :=
  if key = "model".toList then .ok b.model.name.toList
  else if key = "input".toList then
    .ok (Shell.joinWith [' '] (b.model.input.map String.toList))
  else if key = "workers".toList then
    match b.workers with
    | some w => .ok (Nat.toDigits 10 w)
    | none => .error (.missingWorkers template b.variant)
  else .error (.unknownPlaceholder template (String.ofList key))

/-- The value of a piece. -/
def Binding.fill (b : Binding) (template : String) : Piece → Except CatalogError (List Char)
  | .text s => .ok s
  | .tail s => .ok s
  | .group key => b.value template key

/-- The values of pieces, one after the other, up to the first that has none. -/
def Binding.fillAll (b : Binding) (template : String) : List Piece → Except CatalogError (List Char)
  | [] => .ok []
  | p :: ps =>
    match b.fill template p with
    | .error e => .error e
    | .ok v =>
      match b.fillAll template ps with
      | .error e => .error e
      | .ok rest => .ok (v ++ rest)

/-- Puts the values of an experiment into a template. -/
def expand (b : Binding) (template : String) : Except CatalogError String :=
  (b.fillAll template (pieces template.toList)).map String.ofList

/-- The name of an experiment that a speedup refers to. -/
def speedupName (template : String) (model : Model) : Except CatalogError String :=
  expand { variant := template, model, workers := none } template

end BenchSweep.Template
