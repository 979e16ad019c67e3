import Ratchet.Address.Parse
import Ratchet.Address.Random
import Ratchet.Conversation
import Ratchet.Layout.Stored
import Ratchet.Publication
import Ratchet.Store.Guarded
import Ratchet.Store.Memory
import Ratchet.Proofs.Address.Forms
import Ratchet.Proofs.Address.Spelling
import Ratchet.Proofs.Chain.Accounting
import Ratchet.Proofs.Chain.Passing
import Ratchet.Proofs.Chain.Position
import Ratchet.Proofs.Chain.Progress
import Ratchet.Proofs.Chain.Reordering
import Ratchet.Proofs.Chain.Tracing
import Ratchet.Proofs.Cipher.Bijection
import Ratchet.Proofs.Cipher.Inverse
import Ratchet.Proofs.Conversation.Delivering
import Ratchet.Proofs.Conversation.Establishing
import Ratchet.Proofs.Conversation.Outcomes
import Ratchet.Proofs.Conversation.Prekeys
import Ratchet.Proofs.Conversation.Requests
import Ratchet.Proofs.Conversation.Respecting
import Ratchet.Proofs.Conversation.Running
import Ratchet.Proofs.Conversation.Starting
import Ratchet.Proofs.Correspondence.Arriving
import Ratchet.Proofs.Correspondence.Converging
import Ratchet.Proofs.Correspondence.Invariant
import Ratchet.Proofs.Correspondence.Run
import Ratchet.Proofs.Correspondence.Steps
import Ratchet.Proofs.Correspondence.Strands
import Ratchet.Proofs.Curve.Addition
import Ratchet.Proofs.Curve.Coordinates
import Ratchet.Proofs.Curve.Generator
import Ratchet.Proofs.Curve.Ladder
import Ratchet.Proofs.Curve.Malleability
import Ratchet.Proofs.Curve.Primality
import Ratchet.Proofs.Curve.Residues
import Ratchet.Proofs.Curve.Signing
import Ratchet.Proofs.Derivation.Stretching
import Ratchet.Proofs.Dialogue.Climbing
import Ratchet.Proofs.Dialogue.Delivery
import Ratchet.Proofs.Dialogue.Exchanging
import Ratchet.Proofs.Dialogue.Handing
import Ratchet.Proofs.Dialogue.Invariant
import Ratchet.Proofs.Dialogue.Ladder
import Ratchet.Proofs.Dialogue.Receiving
import Ratchet.Proofs.Dialogue.Run
import Ratchet.Proofs.Layout.Restoring
import Ratchet.Proofs.Layout.Size
import Ratchet.Proofs.Octets.Digits
import Ratchet.Proofs.Operation.Effects
import Ratchet.Proofs.Operation.SideBySide
import Ratchet.Proofs.Record.Deciding
import Ratchet.Proofs.Record.Receiving
import Ratchet.Proofs.Record.Recency
import Ratchet.Proofs.Record.Tidiness
import Ratchet.Proofs.Record.Trying
import Ratchet.Proofs.Session.Accounting
import Ratchet.Proofs.Session.Advancing
import Ratchet.Proofs.Session.Belonging
import Ratchet.Proofs.Session.Calls
import Ratchet.Proofs.Session.Chains
import Ratchet.Proofs.Session.Changing
import Ratchet.Proofs.Session.Decrypting
import Ratchet.Proofs.Session.Forging
import Ratchet.Proofs.Session.Handshakes
import Ratchet.Proofs.Session.InPlace
import Ratchet.Proofs.Session.Invariant
import Ratchet.Proofs.Session.Reordering
import Ratchet.Proofs.Session.Replay
import Ratchet.Proofs.Session.Sealing
import Ratchet.Proofs.Session.Sending
import Ratchet.Proofs.Session.Streaming
import Ratchet.Proofs.Store.History
import Ratchet.Proofs.Store.Isolation
import Ratchet.Proofs.Store.Records
import Ratchet.Proofs.Store.Trust
import Ratchet.Proofs.Wire.Accounting
import Ratchet.Proofs.Wire.Grammar
import Ratchet.Proofs.Wire.Machine
import Ratchet.Proofs.Wire.Message
import Ratchet.Proofs.Wire.Numeral
import Ratchet.Proofs.Wire.Parsing
import Ratchet.Proofs.Wire.Reading
import Ratchet.Proofs.Wire.Varint
