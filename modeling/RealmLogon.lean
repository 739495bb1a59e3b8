import RealmLogon.Main
import RealmLogon.Proofs.Cipher.Sealing
import RealmLogon.Proofs.Connection.Authentication
import RealmLogon.Proofs.Connection.Chronicle
import RealmLogon.Proofs.Connection.Conversation
import RealmLogon.Proofs.Connection.History
import RealmLogon.Proofs.Connection.Steady
import RealmLogon.Proofs.Connection.Chunking
import RealmLogon.Proofs.Connection.Link
import RealmLogon.Proofs.Connection.Serving
import RealmLogon.Proofs.Directory.Registration
import RealmLogon.Proofs.Exchange.Agreement
import RealmLogon.Proofs.Session.Coherence
import RealmLogon.Proofs.Session.Stage
import RealmLogon.Proofs.Session.Transcript
import RealmLogon.Proofs.Text.Canonical
import RealmLogon.Proofs.Text.ZeroFree
import RealmLogon.Proofs.Token
import RealmLogon.Proofs.Wire.Frames
import RealmLogon.Proofs.Wire.Inversion
import RealmLogon.Proofs.Wire.Messages
import RealmLogon.Proofs.Probe.Logon
import RealmLogon.Proofs.Probe.Reconnect
import RealmLogon.Proofs.Probe.Registration
import RealmLogon.Proofs.Probe.Turn
import RealmLogon.Proofs.Realm.Announcement
import RealmLogon.Proofs.Session.Requests
import RealmLogon.Proofs.Wire.Reads
import RealmLogon.Proofs.Wire.Realms
import RealmLogon.Proofs.Connection.Grammar
import RealmLogon.Proofs.Directory.FailedLogons
import RealmLogon.Proofs.Connection.Crowd
import RealmLogon.Proofs.Connection.Lockout
import RealmLogon.Proofs.Connection.Alone
import RealmLogon.Proofs.Directory.Bans
import RealmLogon.Proofs.Wire.Capacity
import RealmLogon.Proofs.Probe.Receive
import RealmLogon.Proofs.Probe.Delivery
import RealmLogon.Proofs.Wire.Settling
import RealmLogon.Proofs.Wire.Layout
import RealmLogon.Proofs.Wire.Room
import RealmLogon.Proofs.Probe.Waiting
import RealmLogon.Proofs.Wire.Replies
import RealmLogon.Proofs.Connection.Rejections
import RealmLogon.Proofs.Connection.AddressLock
import RealmLogon.Proofs.Connection.Reading
import RealmLogon.Proofs.Connection.Visit
import RealmLogon.Proofs.Directory.Reports
import RealmLogon.Proofs.Connection.Attempt
import RealmLogon.Proofs.Connection.Siege
import RealmLogon.Proofs.Directory.Reachability
import RealmLogon.Proofs.Connection.CountryLock
import RealmLogon.Proofs.GeoIp.Lookup
import RealmLogon.Proofs.Connection.Dialogue
import RealmLogon.Proofs.Session.Failures
import RealmLogon.Proofs.Connection.Outages
import RealmLogon.Proofs.Connection.Watch
import RealmLogon.Proofs.Connection.Timers
import RealmLogon.Proofs.Connection.Idling
import RealmLogon.Proofs.Session.Challenges
import RealmLogon.Proofs.Directory.BanTime
import RealmLogon.Proofs.Realm.Listing
import RealmLogon.Proofs.Text.Hex
import RealmLogon.Proofs.Session.Tokens
import RealmLogon.Proofs.Directory.Operations
import RealmLogon.Proofs.Directory.Isolation
import RealmLogon.Proofs.Sequences
import RealmLogon.Proofs.Number.Widening
import RealmLogon.Proofs.Net.AddressText
import RealmLogon.Proofs.Directory.RealmTable
import RealmLogon.Proofs.GeoIp.Scan
import RealmLogon.Proofs.Config.Readiness
import RealmLogon.Proofs.Exchange.Binding
import RealmLogon.Proofs.Session.Resumption
import RealmLogon.Proofs.Wire.Guards
import RealmLogon.Proofs.Wire.Untrusted
import RealmLogon.Proofs.Connection.Backlog
import RealmLogon.Proofs.Text.Spelling
import RealmLogon.Proofs.Exchange.Interleaving
import RealmLogon.Proofs.Wire.Tags
import RealmLogon.Proofs.Session.ClientTags
import RealmLogon.Proofs.Probe.Casing
