import Keymap.Registry.Table

/-! Notices: what a keyboard announces after its state changed or a hotkey fired. A mailbox holds the
notices sent to one observer until they are collected; it has room for the last 64, and of older
ones only the number is kept. -/
namespace Keymap

inductive Notice where
  /-- The scope became active; with the scopes that are active now. -/
  | scopeActivated (scope : String) (active : List String)
  | scopeDeactivated (scope : String) (active : List String)
  | registered (id : HotkeyId) (count : UInt64)
  | updated (id : HotkeyId) (count : UInt64)
  | unregistered (id : HotkeyId)
  | triggered (id : HotkeyId) (combination : String)
  deriving DecidableEq, Repr

def Notice.display : Notice → String
  | .scopeActivated scope _ => "SCOPE_ACTIVATED (" ++ scope ++ ")"
  | .scopeDeactivated scope _ => "SCOPE_DEACTIVATED (" ++ scope ++ ")"
  | .registered id count =>
    "HOTKEY_REGISTERED (" ++ id.display ++ " x" ++ Nat.repr count.toNat ++ ")"
  | .updated id count => "HOTKEY_UPDATED (" ++ id.display ++ " x" ++ Nat.repr count.toNat ++ ")"
  | .unregistered id => "HOTKEY_UNREGISTERED (" ++ id.display ++ ")"
  | .triggered id combination => "HOTKEY_TRIGGERED (" ++ id.display ++ " " ++ combination ++ ")"

structure Mailbox where
  pending : List Notice := []
  lost : Nat := 0
  deriving DecidableEq, Repr

namespace Mailbox

def capacity : Nat := 64

def post (m : Mailbox) (notice : Notice) : Mailbox :=
  if m.pending.length < capacity then { m with pending := m.pending ++ [notice] }
  else { pending := m.pending.tail ++ [notice], lost := m.lost + 1 }

def postAll (m : Mailbox) (notices : List Notice) : Mailbox := notices.foldl post m

end Mailbox

end Keymap
