import SpotGridBot.Lib.Delimited
import SpotGridBot.Lib.Forest
import SpotGridBot.Utils.Number
import SpotGridBot.Utils.XmlConfigReader

namespace SpotGridBot.Utils
open Forest

def trim (text : String) : String := String.ofList (Delimited.trim isSpace text.toList)

abbrev Attributes := List (String × String)

namespace Attributes
variable (attributes : Attributes) (name : String)

def getXmlAttribute (defaultValue : String) : String := (attributes.lookup name).getD defaultValue

/-- `parse<int>`, whose regular expression matches the whole text; what `std::stoi` throws is
caught. -/
def parseInt (text : String) (defaultValue : ℤ) : ℤ :=
  let (negative, digits) := stripSign text.toList
  if !digits.isEmpty && digits.all Char.isDigit then
    let value : ℤ := if negative then -digitsValue digits else digitsValue digits
    if -2 ^ 31 ≤ value ∧ value < 2 ^ 31 then value else defaultValue
  else defaultValue

def getXmlInt (defaultValue : ℤ) : ℤ :=
  (attributes.lookup name).elim defaultValue fun text => parseInt text defaultValue

end Attributes

structure XmlData where
  nodeType : XmlConfigReader.NodeType
  nodeName : String
  localName : String
  attributes : Attributes := []

abbrev XmlNode := RoseTree XmlData

def getSubNode (node : Option XmlNode) (tag : String) : Option XmlNode × String :=
  match node with
  | none => (none, "Error in GetSubNode: Invalid base node")
  | some node =>
      if node.children.isEmpty then (none, "Error in GetSubNode: No child nodes defined.")
      else (node.children.find? fun child =>
        child.label.nodeType = .element ∧ child.label.localName = tag, "")

/-- `GetConfigNode`, and its error message. A document is the list of its nodes. -/
def getConfigNode (document : Option (List XmlNode)) (tag : String) : Option XmlNode × String :=
  match document with
  | none => (none, "Error in GetConfigNode: Invalid document node")
  | some nodes =>
      match nodes.find? fun node => node.label.nodeType = .element with
      | none => (none, "Missing root node")
      | some root =>
          if root.label.localName = tag then (some root, "")
          else if root.label.localName = "Configuration" then getSubNode (some root) tag
          else (none, "Invalid root node: " ++ root.label.localName)

theorem getConfigNode_found {document : Option (List XmlNode)} {tag errMsg : String}
    {node : XmlNode} (found : getConfigNode document tag = (some node, errMsg)) : errMsg = "" := by
  unfold getConfigNode at found
  split at found
  next => cases found
  next =>
    split at found
    next => cases found
    next root _ =>
      split at found
      next => exact (Prod.mk.inj found).2.symm
      next =>
        split at found
        next =>
          unfold getSubNode at found
          dsimp only at found
          split at found
          next => cases found
          next => exact (Prod.mk.inj found).2.symm
        next => cases found

end SpotGridBot.Utils
