import Keymap.Main
import Keymap.Proofs.Flow
import Keymap.Proofs.Visible
import Keymap.Wire.Notice
import Keymap.Proofs.Ending
import Keymap.Proofs.Activation
import Keymap.Proofs.Journal
import Keymap.Proofs.Independence
import Keymap.Proofs.Malformed
import Keymap.Proofs.Literal
import Keymap.Proofs.Numeral
import Keymap.Proofs.Fields
import Keymap.Proofs.Replies
import Keymap.Proofs.Framing
import Keymap.Proofs.Leniency
import Keymap.Proofs.Identity
import Keymap.Proofs.Trimming
import Keymap.Proofs.Requests
import Keymap.Proofs.Splitting
import Keymap.Proofs.Client
import Keymap.Proofs.Parts
import Keymap.Proofs.Monotone
import Keymap.Proofs.Held
import Keymap.Proofs.Rewording
import Keymap.Proofs.Agreement
import Keymap.Proofs.Outdated
import Keymap.Proofs.Restart
import Keymap.Proofs.Spellings
import Keymap.Proofs.Tokens
import Keymap.Proofs.Joined
import Keymap.Proofs.Respelling
import Keymap.Proofs.Display
import Keymap.Proofs.CatchAll
import Keymap.Proofs.Toggling
import Keymap.Proofs.Rejoining
import Keymap.Proofs.Renaming
import Keymap.Proofs.Denoting
