import TreeLint.Fix.Basic

/-! Fixing a whole file. Each round looks for defects in the current tree and fixes the first one
that has not been given up. A site is given up when its fix is refused, or when it is reported
again after its fix. -/

namespace TreeLint

structure AppliedFix where
  ruleId : String
  arguments : List String
  deriving DecidableEq

/-- The place a fix works on. Fixes replace nodes where they stand, so a path still leads to the
same place when other places have been fixed, while offsets move. -/
structure FixSite where
  rule : Rule
  path : List Nat
  arguments : List String
  deriving DecidableEq

/-- The class that gets a method, or else the node that the defect points at. -/
def Defect.site (defect : Defect) : FixSite :=
  let target :=
    match defect.rule with
    | .missingToString => (defect.anchor.receiver?.map Receiver.definition).getD defect.anchor
    | .negatedName => defect.anchor
  ⟨defect.rule, target.path, defect.arguments⟩

structure FixState where
  tree : Tree
  /-- In the order in which they were carried out. -/
  applied : List AppliedFix
  done : List FixSite
  givenUp : List FixSite

structure FixOutcome where
  tree : Tree
  applied : List AppliedFix
  /-- The defects of the final tree. -/
  remaining : List Defect

namespace FixState

def start (tree : Tree) : FixState :=
  ⟨tree, [], [], []⟩

def candidate? (rules : List Rule) (keep : Tree → Defect → Bool) (state : FixState) :
    Option Defect :=
  (detect rules state.tree).find? fun defect =>
    hasFix defect.rule.id && keep state.tree defect && !state.givenUp.contains defect.site

def attempt (state : FixState) (defect : Defect) : FixState :=
  if state.done.contains defect.site then
    { state with givenUp := defect.site :: state.givenUp }
  else
    match defect.fixIn state.tree with
    | .ok tree =>
      { state with
        tree := tree
        applied := state.applied ++ [⟨defect.rule.id, defect.arguments⟩]
        done := defect.site :: state.done }
    | .error _ => { state with givenUp := defect.site :: state.givenUp }

/-- One round; none when no candidate is left. -/
def round? (rules : List Rule) (keep : Tree → Defect → Bool) (state : FixState) :
    Option FixState :=
  (state.candidate? rules keep).map state.attempt

def rounds (rules : List Rule) (keep : Tree → Defect → Bool) : Nat → FixState → FixState
  | 0, state => state
  | count + 1, state =>
    match state.round? rules keep with
    | some next => next.rounds rules keep count
    | none => state

end FixState

def maxRounds : Nat := 256

/-- Fixes the defects that `keep` accepts; it is asked about the tree a defect was found in. -/
def fixAllKept (rules : List Rule) (keep : Tree → Defect → Bool) (tree : Tree) : FixOutcome :=
  let final := (FixState.start tree).rounds rules keep maxRounds
  ⟨final.tree, final.applied, (detect rules final.tree).filter (keep final.tree)⟩

def fixAll (rules : List Rule) (tree : Tree) : FixOutcome :=
  fixAllKept rules (fun _ _ => true) tree

def FixOutcome.changed (outcome : FixOutcome) : Bool :=
  !outcome.applied.isEmpty

end TreeLint
