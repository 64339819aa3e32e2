import ShortCircuit.Capacity
import ShortCircuit.Yaml.Data
import ShortCircuit.Yaml.Source
import ShortCircuit.Yaml.Token.Lexer

/-!
# Reading YAML

A text is read in five steps, from octets over characters, tokens, events and nodes to data. It
holds at most one document, and printable characters only.
-/

namespace ShortCircuit.Yaml

variable (C : Capacity)

/-- The data of a text. -/
def data (octets : List UInt8) : Except Failure Data := do
  let events := Event.ofTokens (Token.ofChars (Source.ofOctets octets))
  Data.ofGraph C.links (← Graph.ofEvents C.yaml events)

/-- Reads a text of which entries are needed only under the given keys. -/
def read (keys : List Text) (octets : List UInt8) : Except Failure Value := do
  return (← data C octets).needed keys

end ShortCircuit.Yaml
