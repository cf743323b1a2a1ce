import Keymap.Distinct

/-! Scopes: named contexts in which shortcuts are live. The wildcard scope is active whenever no
other one is. -/
namespace Keymap

def wildcard : String := "*"

/-- A list without repetitions, or the wildcard alone where it would be empty. -/
def scopesOrWildcard (scopes : List String) : List String :=
  match distinct scopes with
  | [] => [wildcard]
  | kept => kept

theorem scopesOrWildcard_ne_nil (scopes : List String) : scopesOrWildcard scopes ≠ [] := by
  unfold scopesOrWildcard
  split
  · exact List.cons_ne_nil _ _
  · assumption

theorem scopesOrWildcard_nodup (scopes : List String) : (scopesOrWildcard scopes).Nodup := by
  unfold scopesOrWildcard
  split
  · exact List.pairwise_singleton _ _
  · exact distinct_nodup scopes

/-- The active scopes in the order of their activation. -/
@[ext] structure ActiveScopes where
  names : List String
  nonempty : names ≠ []
  unique : names.Nodup
  deriving DecidableEq, Repr

namespace ActiveScopes

def ofList (initial : List String) : ActiveScopes where
  names := scopesOrWildcard initial
  nonempty := scopesOrWildcard_ne_nil initial
  unique := scopesOrWildcard_nodup initial

def single (scope : String) : ActiveScopes where
  names := [scope]
  nonempty := List.cons_ne_nil scope []
  unique := List.pairwise_singleton _ scope

@[simp] theorem single_names (scope : String) : (single scope).names = [scope] := rfl

def isActive (s : ActiveScopes) (scope : String) : Bool := scope ∈ s.names

def intersects (s : ActiveScopes) (scopes : List String) : Bool := scopes.any s.isActive

/-- A scope that is not active yet goes to the end. -/
def push (s : ActiveScopes) (scope : String) (fresh : scope ∉ s.names) : ActiveScopes where
  names := s.names ++ [scope]
  nonempty := List.append_ne_nil_of_right_ne_nil _ (List.cons_ne_nil _ _)
  unique := by
    have new := addDistinct_nodup s.unique scope
    rwa [addDistinct, if_neg fresh] at new

@[simp] theorem push_names (s : ActiveScopes) (scope : String) (fresh : scope ∉ s.names) :
    (s.push scope fresh).names = s.names ++ [scope] := rfl

/-- Activates a scope, and tells whether anything changed. An active wildcard gives way, together
with whatever is active beside it. -/
def activate (s : ActiveScopes) (scope : String) : ActiveScopes × Bool :=
  if s.isActive wildcard then
    if s.names.length = 1 && scope = wildcard then (s, false) else (single scope, true)
  else if active : scope ∈ s.names then (s, false)
  else (s.push scope active, true)

/-- Deactivates a scope, and tells whether anything changed. The wildcard takes the place of the
last scope. -/
def deactivate (s : ActiveScopes) (scope : String) : ActiveScopes × Bool :=
  let left := s.names.filter (· ≠ scope)
  if empty : left = [] then (single wildcard, scope ≠ wildcard)
  else (⟨left, empty, s.unique.filter _⟩, left.length ≠ s.names.length)

def toggle (s : ActiveScopes) (scope : String) : ActiveScopes × Bool :=
  if s.isActive scope then s.deactivate scope else s.activate scope

def display (s : ActiveScopes) : String := "[" ++ ", ".intercalate s.names ++ "]"

end ActiveScopes

end Keymap
