import BraceLang.Reader
import BraceLang.Cursor.Script
import BraceLang.Tree.Xml
import BraceLang.Main
import BraceLang.Proofs.Tiling
import BraceLang.Proofs.Layout
import BraceLang.Proofs.Checkpoints
import BraceLang.Proofs.RoundTrip
import BraceLang.Proofs.Progress
import BraceLang.Proofs.Markers
import BraceLang.Proofs.Names
import BraceLang.Proofs.Concatenation
import BraceLang.Proofs.Positions
import BraceLang.Proofs.Markup
import BraceLang.Proofs.Joining
import BraceLang.Proofs.Endings
import BraceLang.Proofs.Faults
import BraceLang.Proofs.Combs
import BraceLang.Proofs.Dispatch
import BraceLang.Proofs.Units
import BraceLang.Proofs.Carets
