import Keymap.Hotkey.Basic
import Keymap.Json.Record

/-! The JSON forms of modifiers, keyboard events and match policies. -/
namespace Keymap

open Json

namespace Platform

def names : List (String × Platform) := [("apple", .apple), ("other", .other)]

def decoder : Decoder Platform := .choice names

def name : Platform → String
  | .apple => "apple"
  | .other => "other"

def toValue (p : Platform) : Value := .text p.name

end Platform

namespace KeyPhase

def names : List (String × KeyPhase) := [("down", .down), ("up", .up)]

def decoder : Decoder KeyPhase := .choice names

def name : KeyPhase → String
  | .down => "down"
  | .up => "up"

def toValue (p : KeyPhase) : Value := .text p.name

end KeyPhase

namespace ModifierMatch

def names : List (String × ModifierMatch) :=
  [("exact", .exact), ("subset", .subset), ("ignore", .ignore)]

def decoder : Decoder ModifierMatch := .choice names

def name : ModifierMatch → String
  | .exact => "exact"
  | .subset => "subset"
  | .ignore => "ignore"

def toValue (m : ModifierMatch) : Value := .text m.name

end ModifierMatch

namespace Modifiers

def record : Record Modifiers where
  title := "struct Modifiers"
  blank := .none
  fields := [
    .must "ctrl" .flag fun b m => { m with ctrl := b },
    .must "shift" .flag fun b m => { m with shift := b },
    .must "alt" .flag fun b m => { m with alt := b },
    .must "meta" .flag fun b m => { m with metaKey := b }]

def decoder : Decoder Modifiers := record.decoder

def toValue (m : Modifiers) : Value :=
  .object [("ctrl", .flag m.ctrl), ("shift", .flag m.shift), ("alt", .flag m.alt),
    ("meta", .flag m.metaKey)]

end Modifiers

namespace KeyboardEvent

def record : Record KeyboardEvent where
  title := "struct KeyboardEvent"
  blank := .ofDown ""
  fields := [
    .must "key" .text fun s e => { e with key := s },
    .may "ctrl" .flag fun b e => { e with ctrl := b },
    .may "shift" .flag fun b e => { e with shift := b },
    .may "alt" .flag fun b e => { e with alt := b },
    .may "meta" .flag fun b e => { e with metaKey := b },
    .may "repeat" .flag fun b e => { e with repeated := b },
    .may "phase" KeyPhase.decoder fun p e => { e with phase := p }]

def decoder : Decoder KeyboardEvent := record.decoder

def toValue (e : KeyboardEvent) : Value :=
  .object [("key", .text e.key), ("ctrl", .flag e.ctrl), ("shift", .flag e.shift),
    ("alt", .flag e.alt), ("meta", .flag e.metaKey), ("repeat", .flag e.repeated),
    ("phase", e.phase.toValue)]

end KeyboardEvent

namespace MatchPolicy

def record : Record MatchPolicy where
  title := "struct MatchPolicy"
  blank := {}
  fields := [
    .may "keydown" .flag fun b p => { p with keydown := b },
    .may "keyup" .flag fun b p => { p with keyup := b },
    .may "ignore_repeat" .flag fun b p => { p with ignoreRepeat := b },
    .may "modifier_match" ModifierMatch.decoder fun m p => { p with modifierMatch := m }]

def decoder : Decoder MatchPolicy := record.decoder

def members (p : MatchPolicy) : List (String × Value) :=
  [("keydown", .flag p.keydown), ("keyup", .flag p.keyup),
    ("ignore_repeat", .flag p.ignoreRepeat), ("modifier_match", p.modifierMatch.toValue)]

def toValue (p : MatchPolicy) : Value := .object p.members

end MatchPolicy

end Keymap
