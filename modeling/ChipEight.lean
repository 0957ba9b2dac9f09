import ChipEight.Host.FileTree
import ChipEight.Main
import ChipEight.Proofs.Accesses
import ChipEight.Proofs.Arithmetic
import ChipEight.Proofs.EventLoop
import ChipEight.Proofs.Footprints
import ChipEight.Proofs.Idling
import ChipEight.Proofs.Journal.Links
import ChipEight.Proofs.Keyboard
import ChipEight.Proofs.Loading.InPlace
import ChipEight.Proofs.Policies
import ChipEight.Proofs.Stamps
