import OpcUa.Error
import OpcUa.NodeId
import OpcUa.Text.Base64
import OpcUa.Text.Number

/-!
The text of node identifiers: `ns=1;i=5`, `s=Pump`, `svr=2;nsu=urn:x;g=…`. Parts with their default
are left out. In a URI, the percent sign and the semicolon are escaped when it is printed, and every
escape of two hexadecimal digits is undone when it is read. Reading fails with the text that could
not be read: the whole of it for a bad namespace or server part, the identifier for a bad identifier.
-/

namespace OpcUa

open Text

/-- A letter and an equals sign, then the value. -/
def Identifier.text : Identifier → Octets
  | .numeric number => Octets.ascii ['i', '='] ++ decimal number.toNat
  | .string text => Octets.ascii ['s', '='] ++ text
  | .guid value => Octets.ascii ['g', '='] ++ value.text
  | .bytes value => Octets.ascii ['b', '='] ++ Base64.encode value

def NodeId.text (id : NodeId) : Octets :=
  (if id.namespaceIndex = 0 then []
    else Octets.ascii ['n', 's', '='] ++ decimal id.namespaceIndex.toNat ++ [0x3B])
    ++ id.identifier.text

/-- Percent signs and semicolons as escapes. -/
def escapeUri (uri : Octets) : Octets :=
  uri.flatMap fun octet =>
    if octet = 0x25 then Octets.ascii ['%', '2', '5']
    else if octet = 0x3B then Octets.ascii ['%', '3', 'B']
    else [octet]

/-- Undoes every escape; a percent sign without two hexadecimal digits stands for itself. -/
def unescapeUri : Octets → Octets
  | [] => []
  | 0x25 :: high :: low :: rest =>
      match hexValue? high, hexValue? low with
      | some high, some low => UInt8.ofNat (16 * high + low) :: unescapeUri rest
      | _, _ => 0x25 :: unescapeUri (high :: low :: rest)
  | octet :: rest => octet :: unescapeUri rest

def ExpandedNodeId.text (id : ExpandedNodeId) : Octets :=
  (if id.serverIndex = 0 then []
    else Octets.ascii ['s', 'v', 'r', '='] ++ decimal id.serverIndex.toNat ++ [0x3B])
    ++ (if id.namespaceUri = [] then id.nodeId.text
      else Octets.ascii ['n', 's', 'u', '='] ++ escapeUri id.namespaceUri ++ 0x3B ::
        id.nodeId.identifier.text)

/-- The value of an identifier, by the letter in front of it. -/
def Identifier.parseValue? (letter : UInt8) (value : Octets) : Option Identifier :=
  if letter = 0x69 then (parseUInt32? value).map .numeric
  else if letter = 0x73 then some (.string value)
  else if letter = 0x67 then (Guid.parse? value).map .guid
  else if letter = 0x62 then (Base64.decode? value).map .bytes
  else none

def Identifier.parse (text : Octets) : Except Error Identifier :=
  match text with
  | letter :: 0x3D :: value =>
      match parseValue? letter value with
      | some identifier => .ok identifier
      | none => .error (.invalidNodeId text)
  | _ => .error (.invalidNodeId text)

def dropLiteral? : Octets → Octets → Option Octets
  | [], text => some text
  | _ :: _, [] => none
  | expected :: literal, octet :: rest =>
      if octet = expected then dropLiteral? literal rest else none

def splitSemicolon? : Octets → Option (Octets × Octets)
  | [] => none
  | octet :: rest =>
      if octet = 0x3B then some ([], rest)
      else (splitSemicolon? rest).map fun parts => (octet :: parts.1, parts.2)

def NodeId.parse (text : Octets) : Except Error NodeId :=
  match dropLiteral? (Octets.ascii ['n', 's', '=']) text with
  | none => (Identifier.parse text).map (NodeId.mk 0)
  | some rest =>
      match splitSemicolon? rest with
      | none => .error (.invalidNodeId text)
      | some (index, rest) =>
          match parseUInt16? index with
          | none => .error (.invalidNodeId text)
          | some index => (Identifier.parse rest).map (NodeId.mk index)

/-- The part after the server: a URI with an identifier, or an identifier with an index. `whole` is
the text that an error shows. -/
def ExpandedNodeId.parseOnServer (server : UInt32) (whole text : Octets) :
    Except Error ExpandedNodeId :=
  match dropLiteral? (Octets.ascii ['n', 's', 'u', '=']) text with
  | none => (NodeId.parse text).map fun id => ⟨id, [], server⟩
  | some rest =>
      match splitSemicolon? rest with
      | none => .error (.invalidNodeId whole)
      | some ([], _) => .error (.invalidNodeId whole)
      | some (uri, rest) =>
          (Identifier.parse rest).map fun identifier => ⟨⟨0, identifier⟩, unescapeUri uri, server⟩

def ExpandedNodeId.parse (text : Octets) : Except Error ExpandedNodeId :=
  match dropLiteral? (Octets.ascii ['s', 'v', 'r', '=']) text with
  | none => parseOnServer 0 text text
  | some rest =>
      match splitSemicolon? rest with
      | none => .error (.invalidNodeId text)
      | some (server, rest) =>
          match parseUInt32? server with
          | none => .error (.invalidNodeId text)
          | some server => parseOnServer server text rest

end OpcUa
