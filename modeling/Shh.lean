import Shh.Reading
import Shh.Transfers
import Shh.KnownKeys
import Shh.Logins
import Shh.AgentClient
import Shh.HostIdentity
import Shh.Nonces
import Shh.Rekeying
import Shh.StrictKex
import Shh.KeyAgreement
import Shh.Confinement
import Shh.Identifiers
import Shh.Replies
import Shh.Listeners
import Shh.Statuses
import Shh.Farewells
import Shh.Wiring
import Shh.Binding
import Shh.KeyFiles
import Shh.Notices
import Shh.Encodings
import Shh.SavedHosts
