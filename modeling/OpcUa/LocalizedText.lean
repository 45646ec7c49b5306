import OpcUa.Octets

/-!
Text for people, with the locale that it is written for.
-/

namespace OpcUa

structure LocalizedText where
  locale : Octets
  text : Octets
deriving DecidableEq

namespace LocalizedText

def null : LocalizedText := ⟨[], []⟩

def isNull (text : LocalizedText) : Bool := text.locale = [] && text.text = []

end LocalizedText

end OpcUa
