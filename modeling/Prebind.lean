import Prebind.Code.Session
import Prebind.Main
import Prebind.Trampoline.Storage
import Prebind.Proofs.Accounting
import Prebind.Proofs.ManifestListings
import Prebind.Proofs.Paging
import Prebind.Proofs.TableCalls
import Prebind.Proofs.ReferenceMachine
import Prebind.Proofs.StorageCalls
import Prebind.Proofs.Streams
import Prebind.Proofs.Pushes
import Prebind.Proofs.StorageChains
import Prebind.Proofs.LogLines
import Prebind.Proofs.Logging
import Prebind.Proofs.Replay
import Prebind.Proofs.FileUpdates
import Prebind.Proofs.ManifestLines
import Prebind.Proofs.ManifestTexts
import Prebind.Proofs.SavedManifests
import Prebind.Proofs.Interruptions
import Prebind.Proofs.Bindings
import Prebind.Proofs.AddressGrammar
import Prebind.Proofs.DocumentTrees
import Prebind.Proofs.AcceptedManifests
import Prebind.Proofs.TableSizes
import Prebind.Proofs.ManifestFlaws
import Prebind.Proofs.SingleListings
import Prebind.Proofs.ListedBytes
import Prebind.Proofs.ShownLines
import Prebind.Proofs.RoomChecks
import Prebind.Proofs.JsonReading
import Prebind.Proofs.JsonListings
import Prebind.Proofs.CommandLines
