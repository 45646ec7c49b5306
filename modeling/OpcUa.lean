import OpcUa.Ieee.Decimal
import OpcUa.StatusCode
import OpcUa.BuiltInType
import OpcUa.Text.Hex
import OpcUa.Text.Utf8
import OpcUa.Text.Base64
import OpcUa.DateTime.Iso8601
import OpcUa.NodeId
import OpcUa.QualifiedName
import OpcUa.LocalizedText
import OpcUa.DiagnosticInfo
import OpcUa.Error.Message
import OpcUa.NodeId.Text
import OpcUa.Value.Equality
import OpcUa.Value.Default
import OpcUa.Value.Integer
import OpcUa.Variant
import OpcUa.NamespaceStack
import OpcUa.MessageContext
import OpcUa.Binary.Encode
import OpcUa.Binary.Decode
import OpcUa.Binary.Session
import OpcUa.Message
import OpcUa.Json.Encoding
import OpcUa.Json.Document
import OpcUa.Xml.Content
import OpcUa.Proofs.Message.Failures
import OpcUa.Proofs.MessageContext.Growth
import OpcUa.Proofs.RoundTrip.Again
import OpcUa.Proofs.RoundTrip.Covering
import OpcUa.Proofs.RoundTrip.Recovery
import OpcUa.Proofs.RoundTrip.Session
import OpcUa.Proofs.RoundTrip.UnknownTypes
import OpcUa.Proofs.RoundTrip.Fixpoint
import OpcUa.Proofs.Reader.MadeReads
import OpcUa.Proofs.Reader.OpenReads
import OpcUa.Proofs.Reader.Prefixes
import OpcUa.Proofs.Message.Framing
import OpcUa.Proofs.Reader.Bodies
import OpcUa.Proofs.Reader.WithoutTypes
import OpcUa.Proofs.Limits.Order
import OpcUa.Proofs.Limits.Reading
import OpcUa.Proofs.Limits.Filter
import OpcUa.Proofs.Limits.Declared
import OpcUa.Proofs.Limits.Dimensions
import OpcUa.Proofs.Limits.ObjectBodies
import OpcUa.Proofs.RoundTrip.MalformedText
import OpcUa.Proofs.Reader.Composition
import OpcUa.Proofs.Reader.Places
import OpcUa.Proofs.Reader.Tracing
import OpcUa.Proofs.Reader.Cursor
import OpcUa.Proofs.Reader.Indices
import OpcUa.Proofs.Session.Window
import OpcUa.Proofs.Session.Indices
import OpcUa.Proofs.Session.Scopes
import OpcUa.Proofs.NodeId.Text
import OpcUa.Proofs.TypeRegistry.Keys
import OpcUa.Proofs.TypeRegistry.Registrations
import OpcUa.Proofs.MessageContext.Coherence
import OpcUa.Proofs.MessageContext.Capacity
import OpcUa.Proofs.Message.ExpectedType
import OpcUa.Proofs.Writer.Independence
import OpcUa.Proofs.Session.InPlace
import OpcUa.Proofs.Session.Appending
import OpcUa.Proofs.Session.Settled
import OpcUa.Proofs.Message.Envelope
import OpcUa.Proofs.Reader.DecodedTypes
import OpcUa.Proofs.Reader.Charging
import OpcUa.Proofs.Reader.Recognition
import OpcUa.Proofs.NodeId.Forms
import OpcUa.Proofs.NodeId.Parsing
import OpcUa.Proofs.Calendar
import OpcUa.Proofs.DateTime.Iso8601
import OpcUa.Proofs.DateTime.Civil
import OpcUa.Proofs.DateTime.TimePoints
import OpcUa.Proofs.DateTime.Grammar
import OpcUa.Proofs.Variant.Origin
import OpcUa.Proofs.Matrix.Rows
import OpcUa.Proofs.Text.Integer
import OpcUa.Proofs.Text.Utf8
import OpcUa.Proofs.Text.Base64.Standard
import OpcUa.Proofs.Text.Base64.Buffer
import OpcUa.Proofs.Calendar.Succession
import OpcUa.Proofs.Value.Defaults
import OpcUa.Proofs.Json.TextCeiling
import OpcUa.Proofs.Text.RealText
import OpcUa.Proofs.Text.Base64.Size
import OpcUa.Proofs.Text.Guid.Layout
