import MeshControl.Backend.Overriding
import MeshControl.Main
import MeshControl.Wire.Buffer.Lemmas
import MeshControl.Wire.FrameStream
import MeshControl.Proofs.Connection.Collecting
import MeshControl.Proofs.Connection.Chunking
import MeshControl.Proofs.Wire.Building
import MeshControl.Proofs.Message.Decoding
import MeshControl.Proofs.Connection.Sending
import MeshControl.Proofs.Message.Grammar
import MeshControl.Proofs.Backend.Recorded
import MeshControl.Proofs.Connection.Handling
import MeshControl.Proofs.Connection.Reporting
import MeshControl.Proofs.Connection.Written
import MeshControl.Proofs.Connection.Draining
import MeshControl.Proofs.Server.Convergence
import MeshControl.Proofs.Connection.Conveying
import MeshControl.Proofs.Message.Fitting
import MeshControl.Proofs.Connection.Answering
import MeshControl.Proofs.Connection.Accepting
import MeshControl.Proofs.Connection.Conversing
import MeshControl.Proofs.Connection.Requesting
import MeshControl.Proofs.Wire.Composing
import MeshControl.Proofs.Client.Calling
import MeshControl.Proofs.Connection.Offering
import MeshControl.Proofs.Connection.Lossless
import MeshControl.Proofs.Network.Basic
import MeshControl.Proofs.Server.Numbering
import MeshControl.Proofs.Network.Linking
import MeshControl.Proofs.Network.Refinement
import MeshControl.Proofs.Network.Returning
import MeshControl.Proofs.Connection.Announcing
import MeshControl.Proofs.Message.Canonical
import MeshControl.Proofs.Connection.Exhausting
import MeshControl.Proofs.Client.Waiting
import MeshControl.Proofs.Client.Crediting
import MeshControl.Proofs.Client.Receiving
import MeshControl.Proofs.Connection.Moving
import MeshControl.Proofs.Connection.Confining
import MeshControl.Proofs.Server.Registering
import MeshControl.Proofs.Connection.Closing
import MeshControl.Proofs.Server.Causes
import MeshControl.Proofs.Server.Limiting
import MeshControl.Proofs.Server.Fanning
import MeshControl.Proofs.Backend.Ordering
import MeshControl.Proofs.Client.Aligning
import MeshControl.Proofs.Wire.Growing
import MeshControl.Proofs.Message.Recovering
import MeshControl.Proofs.Connection.Replying
import MeshControl.Proofs.Connection.Parsing
import MeshControl.Proofs.Text.Pairing
import MeshControl.Proofs.Text.Numerals
import MeshControl.Proofs.Text.Grouping
import MeshControl.Proofs.Message.Addressing
import MeshControl.Proofs.CommandLine.Retyping
import MeshControl.Proofs.Connection.Accounting
import MeshControl.Proofs.Connection.Consulting
import MeshControl.Proofs.Server.Faring
import MeshControl.Proofs.Client.Lacking
import MeshControl.Proofs.Session.Basic
import MeshControl.Proofs.Session.Standing
import MeshControl.Proofs.Session.Subscribing
