import Ribbon.Main
import Ribbon.Proofs.Comment
import Ribbon.Proofs.Runs
import Ribbon.Proofs.Places
import Ribbon.Proofs.Timeline
import Ribbon.Proofs.Meaning
import Ribbon.Proofs.Breaks
import Ribbon.Proofs.Screen
import Ribbon.Proofs.Picture
import Ribbon.Proofs.Columns
import Ribbon.Proofs.Quotation
import Ribbon.Proofs.Recovery
import Ribbon.Proofs.Keywise
import Ribbon.Proofs.Endings
import Ribbon.Proofs.Flags
import Ribbon.Proofs.Precedence
import Ribbon.Proofs.Seams
import Ribbon.Proofs.Joined
import Ribbon.Proofs.Order
import Ribbon.Proofs.Overrides
import Ribbon.Proofs.Turns
import Ribbon.Proofs.Slices
import Ribbon.Proofs.Alone
import Ribbon.Proofs.Widths
import Ribbon.Proofs.Layout
import Ribbon.Proofs.Rulings
import Ribbon.Proofs.Arguments
import Ribbon.Proofs.Forms
import Ribbon.Proofs.Lookahead
