import Mathlib.Logic.Function.Basic
import Mindroid.Net.URI
import Mindroid.Tinyxml2.XMLElement

/-!
# The configuration of the service discovery

A configuration is read from the elements of a document.  Nodes are known by their index among the
nodes that have been accepted.
-/

set_option autoImplicit false

namespace Mindroid

namespace ServiceDiscoveryConfigurationReader

def ROOT_TAG : List UInt8 := String.valueOf "runtime"

def NODES_TAG : List UInt8 := String.valueOf "nodes"

def NODE_TAG : List UInt8 := String.valueOf "node"

def NODE_ID_ATTR : List UInt8 := String.valueOf "id"

def PLUGIN_TAG : List UInt8 := String.valueOf "plugin"

def PLUGIN_SCHEME_ATTR : List UInt8 := String.valueOf "scheme"

def PLUGIN_CLASS_ATTR : List UInt8 := String.valueOf "class"

def SERVER_TAG : List UInt8 := String.valueOf "server"

def SERVER_URI_ATTR : List UInt8 := String.valueOf "uri"

def SERVICE_DISCOVERY_TAG : List UInt8 := String.valueOf "serviceDiscovery"

def SERVICE_TAG : List UInt8 := String.valueOf "service"

def SERVICE_ID_ATTR : List UInt8 := String.valueOf "id"

def SERVICE_NAME_ATTR : List UInt8 := String.valueOf "name"

def ANNOUNCEMENT_TAG : List UInt8 := String.valueOf "announcement"

def ANNOUNCEMENT_INTERFACE_DESCRIPTOR_ATTR : List UInt8 := String.valueOf "interfaceDescriptor"

structure Server where
  uri : List UInt8

structure Plugin where
  node : Option Nat
  scheme : List UInt8
  clazz : List UInt8
  server : Option Server

structure Service where
  node : Option Nat
  id : Int32
  name : List UInt8
  announcements : List UInt8 → Option (List UInt8)

structure Node where
  id : UInt32
  plugins : List UInt8 → Option Plugin
  services : List UInt8 → Option Service

/-- The nodes in `heap` are those that `nodes` has had. -/
structure Configuration where
  heap : List Node
  nodes : UInt32 → Option Nat
  services : List UInt8 → Option Service

def Configuration.empty : Configuration where
  heap := []
  nodes _ := none
  services _ := none

/-- Whether a loop takes an element for one with a tag. -/
def hasTag (tag : List UInt8) (element : XMLElement) : Bool :=
  String.equals tag element.name

/-- The elements that a loop over the elements in an element is about. -/
def elementsOf (tag : List UInt8) (curElement : XMLElement) : List XMLElement :=
  curElement.children.filter (hasTag tag)

/-- A string that an attribute gives, unless it is missing or empty. -/
def textOf (curElement : XMLElement) (name : List UInt8) : Option (List UInt8) :=
  ((curElement.findAttribute name).map String.cStr).filter (· ≠ [])

def parseServer (curElement : XMLElement) : Option Server :=
  match textOf curElement SERVER_URI_ATTR with
  | some uri => some { uri := uri }
  | none => none

def parsePlugin (curElement : XMLElement) : Option Plugin :=
  match textOf curElement PLUGIN_SCHEME_ATTR, textOf curElement PLUGIN_CLASS_ATTR with
  | some scheme, some clazz =>
      some {
        node := none
        scheme := scheme
        clazz := clazz
        server := (elementsOf SERVER_TAG curElement).foldl (fun _ element => parseServer element)
          none }
  | _, _ => none

/-- One turn of the loop in `parseNode`. -/
def addPlugin (node : Nat) (plugins : List UInt8 → Option Plugin) (element : XMLElement) :
    List UInt8 → Option Plugin :=
  match parsePlugin element with
  | some plugin => Function.update plugins plugin.scheme (some { plugin with node := some node })
  | none => plugins

def nodeIdOf (curElement : XMLElement) : UInt32 :=
  match curElement.findAttribute NODE_ID_ATTR with
  | some value => XMLAttribute.unsignedValue value
  | none => 0

def parseNode (node : Nat) (curElement : XMLElement) : Option Node :=
  if nodeIdOf curElement = 0 then
    none
  else
    some {
      id := nodeIdOf curElement
      plugins := (elementsOf PLUGIN_TAG curElement).foldl (addPlugin node) fun _ => none
      services := fun _ => none }

/-- One turn of the loop in `parseNodes`. -/
def addNode (configuration : Configuration) (element : XMLElement) : Configuration :=
  match parseNode configuration.heap.length element with
  | some node =>
      { configuration with
        heap := configuration.heap ++ [node]
        nodes := Function.update configuration.nodes node.id (some configuration.heap.length) }
  | none => configuration

def parseNodes (configuration : Configuration) (curElement : XMLElement) : Configuration :=
  (elementsOf NODE_TAG curElement).foldl addNode configuration

def parseAnnouncement (curElement : XMLElement) : Except Failure (Option URI) :=
  match textOf curElement ANNOUNCEMENT_INTERFACE_DESCRIPTOR_ATTR with
  | some interfaceDescriptor =>
      match URI.create interfaceDescriptor with
      | .ok uri => .ok (some uri)
      | .error (.illegalArgumentException _) => .ok none
      | .error thrown => .error thrown
  | none => .ok none

/-- One turn of the loop in `parseService`; the map hashes its key. -/
def addAnnouncement (announcements : List UInt8 → Option (List UInt8)) (element : XMLElement) :
    Except Failure (List UInt8 → Option (List UInt8)) := do
  match ← parseAnnouncement element with
  | some interfaceDescriptor =>
      match interfaceDescriptor.mScheme with
      | some scheme =>
          return Function.update announcements scheme (some interfaceDescriptor.mString)
      | none => .error .nullPointer
  | none => return announcements

def serviceIdOf (curElement : XMLElement) : Int32 :=
  match curElement.findAttribute SERVICE_ID_ATTR with
  | some value => XMLAttribute.intValue value
  | none => -1

def parseService (curElement : XMLElement) : Except Failure (Option Service) :=
  match textOf curElement SERVICE_NAME_ATTR with
  | some name =>
      if serviceIdOf curElement < 0 then
        .ok none
      else do
        let announcements ←
          (elementsOf ANNOUNCEMENT_TAG curElement).foldlM addAnnouncement fun _ => none
        return some {
          node := none
          id := serviceIdOf curElement
          name := name
          announcements := announcements }
  | none => .ok none

def Node.putService (service : Service) (node : Node) : Node :=
  { node with services := Function.update node.services service.name (some service) }

/-- What is done with a service of a node. -/
def Configuration.putService (configuration : Configuration) (node : Nat) (service : Service) :
    Configuration :=
  { configuration with
    heap := configuration.heap.modify node (Node.putService service)
    services := Function.update configuration.services service.name (some service) }

/-- One turn of the loop in `parseServiceDiscoveryNode`. -/
def addService (node : Nat) (configuration : Configuration) (element : XMLElement) :
    Except Failure Configuration := do
  match ← parseService element with
  | some service => return configuration.putService node { service with node := some node }
  | none => return configuration

def parseServiceDiscoveryNode (configuration : Configuration) (curElement : XMLElement) :
    Except Failure Configuration :=
  match configuration.nodes (nodeIdOf curElement) with
  | some node => (elementsOf SERVICE_TAG curElement).foldlM (addService node) configuration
  | none => .ok configuration

def parseServiceDiscovery (configuration : Configuration) (sdNode : XMLElement) :
    Except Failure Configuration :=
  (elementsOf NODE_TAG sdNode).foldlM parseServiceDiscoveryNode configuration

/-- One turn of the loop in `read`. -/
def parseSection (configuration : Configuration) (element : XMLElement) :
    Except Failure Configuration :=
  if hasTag NODES_TAG element then
    .ok (parseNodes configuration element)
  else if hasTag SERVICE_DISCOVERY_TAG element then
    parseServiceDiscovery configuration element
  else
    .ok configuration

/-- `read` of the elements of a document, if it could be loaded. -/
def read (doc : Option (List XMLElement)) : Except Failure (Option Configuration) :=
  match doc with
  | none => .ok none
  | some elements =>
      match elements.find? (hasTag ROOT_TAG) with
      | some rootNode => some <$> rootNode.children.foldlM parseSection Configuration.empty
      | none => .ok none

end ServiceDiscoveryConfigurationReader

end Mindroid
