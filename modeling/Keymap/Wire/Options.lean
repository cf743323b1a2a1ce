import Keymap.Options
import Keymap.Wire.Hotkey

/-! The JSON forms of registration options. -/
namespace Keymap

open Json

namespace Options

/-- The members beside those of the policy. -/
def record : Record Options where
  title := "struct HotkeyOptions"
  blank := {}
  fields := [
    .may "scopes" (.list .text) fun scopes o => { o with scopes := scopes },
    .may "split_key" .text fun s o => { o with splitAt := s },
    .may "combination_key" .text fun s o => { o with separator := s },
    .may "description" (.optional .text) fun s o => { o with description := s },
    .may "enabled" .flag fun b o => { o with enabled := b }]

def read (depth : Nat) : Scan Options := fun cs =>
  (record.readBoth MatchPolicy.record depth cs).map fun ((options, policy), rest) =>
    ({ options with policy := policy }, rest)

/-- Decodes an object that holds the members of the policy beside the other ones. -/
def decode (text : String) : Except Failure Options := decodeWith read text

def toValue (o : Options) : Value :=
  .object <| [("scopes", textsValue o.scopes), ("split_key", .text o.splitAt),
    ("combination_key", .text o.separator),
    ("description", (o.description.map Value.text).getD .null), ("enabled", .flag o.enabled)] ++
    o.policy.members

end Options

namespace PartialOptions

def record : Record PartialOptions where
  title := "struct RequestOptions"
  blank := {}
  fields := [
    .may "scopes" (.optional (.list .text)) fun scopes o => { o with scopes := scopes },
    .may "split_key" (.optional .text) fun s o => { o with splitAt := s },
    .may "combination_key" (.optional .text) fun s o => { o with separator := s },
    .may "description" (.optional .text) fun s o => { o with description := s },
    .may "enabled" (.optional .flag) fun b o => { o with enabled := b },
    .may "keydown" (.optional .flag) fun b o => { o with keydown := b },
    .may "keyup" (.optional .flag) fun b o => { o with keyup := b },
    .may "ignore_repeat" (.optional .flag) fun b o => { o with ignoreRepeat := b },
    .may "modifier_match" (.optional ModifierMatch.decoder) fun m o =>
      { o with modifierMatch := m }]

def decoder : Decoder PartialOptions := record.decoder

/-- What is left open is not written. -/
def toValue (o : PartialOptions) : Value :=
  .object <| memberOf "scopes" textsValue o.scopes ++ memberOf "split_key" .text o.splitAt ++
    memberOf "combination_key" .text o.separator ++ memberOf "description" .text o.description ++
    memberOf "enabled" .flag o.enabled ++ memberOf "keydown" .flag o.keydown ++
    memberOf "keyup" .flag o.keyup ++ memberOf "ignore_repeat" .flag o.ignoreRepeat ++
    memberOf "modifier_match" ModifierMatch.toValue o.modifierMatch

end PartialOptions

end Keymap
