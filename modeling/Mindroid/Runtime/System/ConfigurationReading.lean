import Mindroid.Foundation.Folds
import Mindroid.Net.UriConstructors
import Mindroid.Runtime.System.ServiceDiscoveryConfigurationReader

/-!
# Reading a configuration with invalid elements

A document is read as it is read without its invalid elements, unless an announcement has no scheme
or the last server of a plugin is invalid.
-/

set_option autoImplicit false

namespace Mindroid

open Foundation

namespace ServiceDiscoveryConfigurationReader

/-! ## Valid elements -/

def validServer (element : XMLElement) : Bool :=
  (textOf element SERVER_URI_ATTR).isSome

def validPlugin (element : XMLElement) : Bool :=
  (textOf element PLUGIN_SCHEME_ATTR).isSome && (textOf element PLUGIN_CLASS_ATTR).isSome

def validNode (element : XMLElement) : Bool :=
  nodeIdOf element != 0

def validService (element : XMLElement) : Bool :=
  decide (0 ≤ serviceIdOf element) && (textOf element SERVICE_NAME_ATTR).isSome

/-- The URI in an announcement, if it can be parsed. -/
def uriIn (element : XMLElement) : Option URI :=
  (textOf element ANNOUNCEMENT_INTERFACE_DESCRIPTOR_ATTR).bind fun interfaceDescriptor =>
    (URI.create interfaceDescriptor).toOption

def validAnnouncement (element : XMLElement) : Bool :=
  (uriIn element).any fun uri => uri.mScheme.isSome

/-! ## Documents without invalid elements -/

/-- The element with only the valid ones of the elements with a tag, and these changed. -/
def restrict (tag : List UInt8) (valid : XMLElement → Bool) (change : XMLElement → XMLElement)
    (element : XMLElement) : XMLElement :=
  { element with
    children := (element.children.filter fun child => !hasTag tag child || valid child).map
      fun child => if hasTag tag child then change child else child }

def restrictPlugin : XMLElement → XMLElement :=
  restrict SERVER_TAG validServer id

def restrictNode : XMLElement → XMLElement :=
  restrict PLUGIN_TAG validPlugin restrictPlugin

def restrictService : XMLElement → XMLElement :=
  restrict ANNOUNCEMENT_TAG validAnnouncement id

def restrictDiscoveryNode : XMLElement → XMLElement :=
  restrict SERVICE_TAG validService restrictService

def restrictSection (element : XMLElement) : XMLElement :=
  if hasTag NODES_TAG element then
    restrict NODE_TAG validNode restrictNode element
  else if hasTag SERVICE_DISCOVERY_TAG element then
    restrict NODE_TAG validNode restrictDiscoveryNode element
  else
    element

def restrictRoot (rootNode : XMLElement) : XMLElement :=
  { rootNode with children := rootNode.children.map restrictSection }

/-- A document without its invalid elements. -/
def restrictDoc (elements : List XMLElement) : List XMLElement :=
  elements.map fun element => if hasTag ROOT_TAG element then restrictRoot element else element

/-- A configuration is read, and it is the same without the invalid elements. -/
def Reads (elements : List XMLElement) : Prop :=
  ∃ configuration, read (some elements) = .ok (some configuration) ∧
    read (some (restrictDoc elements)) = .ok (some configuration)

/-! ## Where this holds -/

/-- An announcement has a URI without a scheme. -/
def Schemeless (element : XMLElement) : Prop :=
  ∃ uri, uriIn element = some uri ∧ uri.mScheme = none

/-- The last server of a plugin is valid, or none is. -/
def KeepsServer (plugin : XMLElement) : Prop :=
  ∀ last, (elementsOf SERVER_TAG plugin).getLast? = some last →
    validServer last = true ∨ ∀ server ∈ elementsOf SERVER_TAG plugin, validServer server = false

/-- A plugin for a scheme. -/
def isPluginFor (scheme : List UInt8) (plugin : XMLElement) : Bool :=
  validPlugin plugin && textOf plugin PLUGIN_SCHEME_ATTR == some scheme

/-- The last plugin for every scheme keeps its server. -/
def KeepsServers (node : XMLElement) : Prop :=
  ∀ scheme plugin,
    ((elementsOf PLUGIN_TAG node).filter (isPluginFor scheme)).getLast? = some plugin →
      KeepsServer plugin

/-- No announcement of a service is without a scheme. -/
def Announces (node : XMLElement) : Prop :=
  ∀ service ∈ elementsOf SERVICE_TAG node, validService service = true →
    ∀ element ∈ elementsOf ANNOUNCEMENT_TAG service, ¬Schemeless element

/-- The ids of the nodes in an element. -/
def idsIn (element : XMLElement) : List UInt32 :=
  ((elementsOf NODE_TAG element).filter validNode).map nodeIdOf

/-- The nodes keep their servers, and the services of nodes with ids that are known by then announce
schemes. -/
def Readable (known : List UInt32) : List XMLElement → Prop
  | [] => True
  | element :: later =>
      if hasTag NODES_TAG element then
        (∀ node ∈ elementsOf NODE_TAG element, validNode node = true → KeepsServers node) ∧
          Readable (known ++ idsIn element) later
      else if hasTag SERVICE_DISCOVERY_TAG element then
        (∀ node ∈ elementsOf NODE_TAG element, nodeIdOf node ∈ known → Announces node) ∧
          Readable known later
      else
        Readable known later

/-! ## Elements that are left out -/

section Restricted

variable {tag name : List UInt8} {valid : XMLElement → Bool} {change : XMLElement → XMLElement}
variable {element : XMLElement}

theorem elementsOf_restrict (named : ∀ child, (change child).name = child.name) :
    elementsOf tag (restrict tag valid change element) =
      ((elementsOf tag element).filter valid).map change := by
  have kept : ∀ children : List XMLElement,
      ((children.filter fun child => !hasTag tag child || valid child).map
        fun child => if hasTag tag child then change child else child).filter (hasTag tag) =
          ((children.filter (hasTag tag)).filter valid).map change := by
    intro children
    induction children with
    | nil => rfl
    | cons child children ih =>
        have sameTag : hasTag tag (change child) = hasTag tag child := by
          rw [hasTag, named, hasTag]
        cases tagged : hasTag tag child with
        | false => simp [tagged, ih]
        | true =>
            cases isValid : valid child with
            | false => simp [tagged, isValid, ih]
            | true => simp [tagged, isValid, sameTag, ih]
  exact kept element.children

end Restricted

/-! ## Servers and plugins -/

section Plugins

variable {element plugin node : XMLElement}

theorem parseServer_none_iff : parseServer element = none ↔ validServer element = false := by
  rw [parseServer, validServer]
  cases textOf element SERVER_URI_ATTR with
  | none => exact iff_of_true rfl rfl
  | some uri => exact iff_of_false (Option.some_ne_none _) (Bool.eq_not_self true).mp

/-- The loop keeps what it has read last. -/
theorem foldl_last {α β : Type} (f : α → Option β) (list : List α) :
    list.foldl (fun _ a => f a) none = list.getLast?.bind f := by
  rcases List.eq_nil_or_concat list with rfl | ⟨front, last, rfl⟩
  · rfl
  · rw [List.concat_eq_append, List.foldl_append, List.getLast?_append]
    rfl

theorem servers_restrict_iff :
    (((elementsOf SERVER_TAG plugin).filter validServer).map id).getLast?.bind parseServer =
        (elementsOf SERVER_TAG plugin).getLast?.bind parseServer ↔ KeepsServer plugin := by
  rw [KeepsServer, List.map_id]
  rcases List.eq_nil_or_concat (elementsOf SERVER_TAG plugin) with empty | ⟨front, last, split⟩
  · rw [empty]
    exact iff_of_true rfl fun last none => by cases none
  · rw [split, List.concat_eq_append, List.filter_append, List.getLast?_append,
      List.getLast?_append]
    cases isValid : validServer last with
    | true =>
        rw [List.filter_cons_of_pos isValid]
        refine iff_of_true rfl fun other isLast => .inl ?_
        cases isLast
        exact isValid
    | false =>
        rw [List.filter_cons_of_neg (by rw [isValid]; decide)]
        have lastNone : parseServer last = none := parseServer_none_iff.mpr isValid
        have readNone : ((front.filter validServer).getLast?.bind parseServer = none) ↔
            ∀ server ∈ front, validServer server = false := by
          constructor
          · intro readNone server member
            by_contra isServer
            have filtered : server ∈ front.filter validServer :=
              List.mem_filter.mpr ⟨member, eq_true_of_ne_false isServer⟩
            obtain ⟨newest, isNewest⟩ : ∃ newest, (front.filter validServer).getLast? = some newest :=
              ⟨_, List.getLast?_eq_some_getLast (List.ne_nil_of_mem filtered)⟩
            have isValid := (List.mem_filter.mp (List.mem_of_getLast? isNewest)).2
            rw [isNewest, Option.bind_some, parseServer_none_iff, isValid] at readNone
            cases readNone
          · intro none
            rw [List.filter_eq_nil_iff.mpr fun server member => by rw [none server member]; decide]
            rfl
        change (front.filter validServer).getLast?.bind parseServer = parseServer last ↔ _
        rw [lastNone, readNone]
        constructor
        · intro none other isLast
          right
          intro server member
          rcases List.mem_append.mp member with before | atEnd
          · exact none server before
          · rw [List.mem_singleton.mp atEnd]
            exact isValid
        · intro keeps server member
          rcases keeps last rfl with newest | none
          · cases isValid.symm.trans newest
          · exact none server (List.mem_append_left _ member)

theorem parsePlugin_none (invalid : validPlugin plugin = false) : parsePlugin plugin = none := by
  rw [validPlugin] at invalid
  rw [parsePlugin]
  cases scheme : textOf plugin PLUGIN_SCHEME_ATTR with
  | none => rfl
  | some scheme =>
      cases clazz : textOf plugin PLUGIN_CLASS_ATTR with
      | none => rfl
      | some clazz =>
          rw [scheme, clazz] at invalid
          cases invalid

theorem parsePlugin_some (isValid : validPlugin plugin = true) :
    ∃ scheme clazz, textOf plugin PLUGIN_SCHEME_ATTR = some scheme ∧
      textOf plugin PLUGIN_CLASS_ATTR = some clazz ∧
      parsePlugin plugin = some ⟨none, scheme, clazz,
        (elementsOf SERVER_TAG plugin).getLast?.bind parseServer⟩ := by
  rw [validPlugin, Bool.and_eq_true, Option.isSome_iff_exists, Option.isSome_iff_exists] at isValid
  obtain ⟨⟨scheme, isScheme⟩, clazz, isClazz⟩ := isValid
  refine ⟨scheme, clazz, isScheme, isClazz, ?_⟩
  rw [parsePlugin, isScheme, isClazz, ← foldl_last]

/-- A plugin is entered as without its invalid servers if it keeps its server. -/
theorem entered_restrict_iff (isValid : validPlugin plugin = true) (node : Nat) :
    (parsePlugin (restrictPlugin plugin)).map (fun entered => { entered with node := some node }) =
        (parsePlugin plugin).map (fun entered => { entered with node := some node }) ↔
      KeepsServer plugin := by
  obtain ⟨scheme, clazz, isScheme, isClazz, parsed⟩ := parsePlugin_some isValid
  have restricted : validPlugin (restrictPlugin plugin) = true := isValid
  obtain ⟨scheme', clazz', isScheme', isClazz', parsed'⟩ := parsePlugin_some restricted
  cases isScheme.symm.trans isScheme'
  cases isClazz.symm.trans isClazz'
  have servers : elementsOf SERVER_TAG (restrictPlugin plugin) =
      ((elementsOf SERVER_TAG plugin).filter validServer).map id :=
    elementsOf_restrict fun _ => rfl
  rw [parsed, parsed', servers, ← servers_restrict_iff]
  simp

/-- The last plugin for a scheme is the one that is entered. -/
theorem plugins_apply (node : Nat) (list : List XMLElement) (scheme : List UInt8) :
    list.foldl (addPlugin node) (fun _ => none) scheme =
      (list.filter (isPluginFor scheme)).getLast?.bind fun element =>
        (parsePlugin element).map fun plugin => { plugin with node := some node } := by
  induction list using List.reverseRecOn with
  | nil => rfl
  | append_singleton front last ih =>
      rw [List.foldl_append, List.foldl_cons, List.foldl_nil, List.filter_append,
        List.getLast?_append]
      cases isValid : validPlugin last with
      | false =>
          have other : isPluginFor scheme last = false := by
            rw [isPluginFor, isValid]
            rfl
          rw [List.filter_cons_of_neg (by rw [other]; decide), addPlugin, parsePlugin_none isValid]
          exact ih
      | true =>
          obtain ⟨ownScheme, clazz, isScheme, _, parsed⟩ := parsePlugin_some isValid
          rw [addPlugin, parsed]
          by_cases same : ownScheme = scheme
          · subst same
            have isFor : isPluginFor ownScheme last = true := by
              rw [isPluginFor, isValid, isScheme]
              exact beq_self_eq_true _
            rw [List.filter_cons_of_pos isFor]
            simp [parsed]
          · have other : isPluginFor scheme last = false := by
              rw [isPluginFor, isValid, isScheme]
              exact beq_false_of_ne fun equal => same (Option.some.inj equal)
            rw [List.filter_cons_of_neg (by rw [other]; decide)]
            simp only
            rw [Function.update_of_ne (Ne.symm same)]
            exact ih

/-- The plugins of a node are entered as without the invalid elements if the last one for every
scheme keeps its server. -/
theorem plugins_restrict_iff (address : Nat) :
    (elementsOf PLUGIN_TAG (restrictNode node)).foldl (addPlugin address) (fun _ => none) =
        (elementsOf PLUGIN_TAG node).foldl (addPlugin address) (fun _ => none) ↔
      KeepsServers node := by
  have plugins : elementsOf PLUGIN_TAG (restrictNode node) =
      ((elementsOf PLUGIN_TAG node).filter validPlugin).map restrictPlugin :=
    elementsOf_restrict fun _ => rfl
  have forScheme : ∀ scheme, (elementsOf PLUGIN_TAG (restrictNode node)).filter (isPluginFor scheme) =
      ((elementsOf PLUGIN_TAG node).filter (isPluginFor scheme)).map restrictPlugin := by
    intro scheme
    rw [plugins, List.filter_map, List.filter_filter]
    congr 2
    funext plugin
    change (isPluginFor scheme plugin && validPlugin plugin) = isPluginFor scheme plugin
    rw [isPluginFor]
    cases validPlugin plugin with
    | false => rfl
    | true => exact Bool.and_true _
  rw [KeepsServers, funext_iff]
  refine forall_congr' fun scheme => ?_
  rw [plugins_apply, plugins_apply, forScheme, List.getLast?_map]
  cases isLast : ((elementsOf PLUGIN_TAG node).filter (isPluginFor scheme)).getLast? with
  | none => exact iff_of_true rfl fun plugin none => by cases none
  | some last =>
      have isFor := (List.mem_filter.mp (List.mem_of_getLast? isLast)).2
      rw [isPluginFor, Bool.and_eq_true] at isFor
      rw [Option.map_some, Option.bind_some, Option.bind_some, entered_restrict_iff isFor.1]
      simp

end Plugins

/-! ## Announcements and services -/

section Services

variable {element service node : XMLElement}

theorem parseAnnouncement_eq (element : XMLElement) :
    parseAnnouncement element = .ok (uriIn element) := by
  rw [parseAnnouncement, uriIn]
  cases text : textOf element ANNOUNCEMENT_INTERFACE_DESCRIPTOR_ATTR with
  | none => rfl
  | some interfaceDescriptor =>
      have nonempty : interfaceDescriptor ≠ [] := by
        rw [textOf, Option.filter_eq_some_iff] at text
        exact of_decide_eq_true text.2
      rw [Option.bind_some]
      cases created : URI.create interfaceDescriptor with
      | ok uri =>
          simp only [created]
          rfl
      | error thrown =>
          rcases (URI.onlyIllegalArgumentException_create_iff _).mpr nonempty thrown created with
            ⟨message, rfl⟩
          simp only [created]
          rfl

theorem addAnnouncement_schemeless (schemeless : Schemeless element)
    (announcements : List UInt8 → Option (List UInt8)) :
    addAnnouncement announcements element = .error .nullPointer := by
  rcases schemeless with ⟨uri, isUri, missing⟩
  rw [addAnnouncement, parseAnnouncement_eq, isUri]
  simp only [bind, Except.bind, missing]

theorem addAnnouncement_ok (schemed : ¬Schemeless element)
    (announcements : List UInt8 → Option (List UInt8)) :
    ∃ next, addAnnouncement announcements element = .ok next ∧
      (validAnnouncement element = false → next = announcements) := by
  rw [addAnnouncement, parseAnnouncement_eq]
  cases isUri : uriIn element with
  | none => exact ⟨announcements, rfl, fun _ => rfl⟩
  | some uri =>
      cases isScheme : uri.mScheme with
      | none => exact absurd ⟨uri, isUri, isScheme⟩ schemed
      | some scheme =>
          refine ⟨Function.update announcements scheme (some uri.mString), ?_, fun invalid => ?_⟩
          · simp only [bind, Except.bind, isScheme]
            rfl
          · rw [validAnnouncement, isUri, Option.any_some, isScheme] at invalid
            cases invalid

theorem announcements_restrict
    (schemed : ∀ element ∈ elementsOf ANNOUNCEMENT_TAG service, ¬Schemeless element) :
    ∃ announcements,
      (elementsOf ANNOUNCEMENT_TAG service).foldlM addAnnouncement (fun _ => none) =
          .ok announcements ∧
        (elementsOf ANNOUNCEMENT_TAG (restrictService service)).foldlM addAnnouncement
          (fun _ => none) = .ok announcements := by
  have valid : elementsOf ANNOUNCEMENT_TAG (restrictService service) =
      ((elementsOf ANNOUNCEMENT_TAG service).filter validAnnouncement).map id :=
    elementsOf_restrict fun _ => rfl
  rw [valid]
  have related := @foldlM_related _ _ _ addAnnouncement (elementsOf ANNOUNCEMENT_TAG service)
    (fun _ => none) (fun _ => none) validAnnouncement id Eq ?_ ?_ rfl
  · rcases related with ⟨last, _, reads, reads', rfl⟩
    exact ⟨last, reads, reads'⟩
  · intro element member invalid announcements _ _
    rcases addAnnouncement_ok (schemed element member) announcements with ⟨next, adds, skips⟩
    rw [adds, skips invalid]
  · rintro element member _ announcements _ rfl
    rcases addAnnouncement_ok (schemed element member) announcements with ⟨next, adds, _⟩
    exact ⟨next, next, adds, adds, rfl⟩

theorem parseService_none (invalid : validService service = false) :
    parseService service = .ok none := by
  rw [validService] at invalid
  rw [parseService]
  cases named : textOf service SERVICE_NAME_ATTR with
  | none => rfl
  | some name =>
      rw [named, Option.isSome_some, Bool.and_true, decide_eq_false_iff_not, Int32.not_le] at invalid
      simp only [invalid, if_true]

theorem parseService_eq (isValid : validService service = true) :
    ∃ name, parseService service = (do
      let announcements ←
        (elementsOf ANNOUNCEMENT_TAG service).foldlM addAnnouncement fun _ => none
      return some ⟨none, serviceIdOf service, name, announcements⟩) ∧
        textOf service SERVICE_NAME_ATTR = some name := by
  rw [validService, Bool.and_eq_true, decide_eq_true_eq, Option.isSome_iff_exists] at isValid
  obtain ⟨positive, name, named⟩ := isValid
  refine ⟨name, ?_, named⟩
  rw [parseService, named]
  simp only [if_neg (Int32.not_lt.mpr positive)]

/-- A service that announces schemes is read as without the invalid announcements. -/
theorem parseService_restrict (isValid : validService service = true)
    (schemed : ∀ element ∈ elementsOf ANNOUNCEMENT_TAG service, ¬Schemeless element) :
    ∃ parsed, parseService service = .ok (some parsed) ∧
      parseService (restrictService service) = .ok (some parsed) := by
  have restricted : validService (restrictService service) = true := isValid
  obtain ⟨name, parses, named⟩ := parseService_eq isValid
  obtain ⟨name', parses', named'⟩ := parseService_eq restricted
  cases named.symm.trans named'
  obtain ⟨announcements, reads, reads'⟩ := announcements_restrict schemed
  refine ⟨⟨none, serviceIdOf service, name, announcements⟩, ?_, ?_⟩
  · rw [parses, reads]
    rfl
  · rw [parses', reads']
    rfl

/-- A service with an announcement without a scheme is not read. -/
theorem parseService_schemeless (isValid : validService service = true)
    (member : element ∈ elementsOf ANNOUNCEMENT_TAG service) (schemeless : Schemeless element)
    (parsed : Option Service) : parseService service ≠ .ok parsed := by
  intro parses
  obtain ⟨name, reads, _⟩ := parseService_eq isValid
  rw [reads] at parses
  cases ends : (elementsOf ANNOUNCEMENT_TAG service).foldlM addAnnouncement (fun _ => none) with
  | error thrown =>
      rw [ends] at parses
      cases parses
  | ok announcements =>
      obtain ⟨before, after, _, adds⟩ :=
        foldlM_ok_step (fun _ => True) (fun _ _ _ _ _ _ => trivial) trivial member ends
      rw [addAnnouncement_schemeless schemeless] at adds
      cases adds

end Services

/-! ## Configurations -/

/-- A node without its plugins. -/
def Node.unplugged (node : Node) : Node :=
  { node with plugins := fun _ => none }

/-- The plugins of all nodes. -/
def Configuration.plugins (configuration : Configuration) :
    List (List UInt8 → Option Plugin) :=
  configuration.heap.map Node.plugins

/-- Two configurations are the same but for the plugins of their nodes. -/
structure SameServices (c c' : Configuration) : Prop where
  nodes : c.nodes = c'.nodes
  services : c.services = c'.services
  heap : c.heap.map Node.unplugged = c'.heap.map Node.unplugged

/-- Two configurations have got services, and have kept their nodes and the plugins of them. -/
structure Kept (c c' d d' : Configuration) : Prop where
  same : SameServices d d'
  nodes : d.nodes = c.nodes
  plugins : d.plugins = c.plugins
  plugins' : d'.plugins = c'.plugins

section Configurations

variable {c c' d d' : Configuration} {element service node : XMLElement}

theorem SameServices.length (same : SameServices c c') : c.heap.length = c'.heap.length := by
  have size := congrArg List.length same.heap
  rwa [List.length_map, List.length_map] at size

/-- What is the same but for the plugins is the same if the plugins are. -/
theorem SameServices.eq_iff (same : SameServices c c') : c = c' ↔ c.plugins = c'.plugins := by
  constructor
  · exact fun equal => congrArg Configuration.plugins equal
  · intro samePlugins
    have heaps : c.heap = c'.heap := by
      apply List.ext_getElem same.length
      intro i inside inside'
      have plugged := congrArg (fun list => list[i]?) samePlugins
      have unplugged := congrArg (fun list => list[i]?) same.heap
      simp only [Configuration.plugins, List.getElem?_map, List.getElem?_eq_getElem inside,
        List.getElem?_eq_getElem inside', Option.map_some, Option.some.injEq] at plugged unplugged
      rw [Node.unplugged, Node.unplugged, Node.mk.injEq] at unplugged
      exact Node.mk.injEq _ _ _ _ _ _ ▸ ⟨unplugged.1, plugged, unplugged.2.2⟩
    cases c
    cases c'
    exact Configuration.mk.injEq _ _ _ _ _ _ ▸ ⟨heaps, same.nodes, same.services⟩

theorem map_modify {α β : Type} {view : α → β} {change : α → α} {change' : β → β}
    (commutes : ∀ a, view (change a) = change' (view a)) (list : List α) (i : Nat) :
    (list.modify i change).map view = (list.map view).modify i change' := by
  induction list generalizing i with
  | nil => cases i <;> rfl
  | cons a list ih =>
      cases i with
      | zero => exact congrArg (· :: list.map view) (commutes a)
      | succ i => exact congrArg (view a :: ·) (ih i)

theorem Kept.refl (same : SameServices c c') : Kept c c' c c' :=
  ⟨same, rfl, rfl, rfl⟩

theorem Kept.putService (same : SameServices c c') (address : Nat) (added : Service) :
    Kept c c' (c.putService address added) (c'.putService address added) := by
  have unplugs : ∀ owner, Node.unplugged (Node.putService added owner) =
      Node.putService added (Node.unplugged owner) := fun _ => rfl
  have keepsPlugins : ∀ owner, (Node.putService added owner).plugins = id owner.plugins := fun _ => rfl
  have unplugged : ∀ heap : List Node, (heap.modify address (Node.putService added)).map
      Node.unplugged = (heap.map Node.unplugged).modify address (Node.putService added) :=
    fun heap => map_modify unplugs heap address
  have plugged : ∀ heap : List Node, (heap.modify address (Node.putService added)).map
      Node.plugins = heap.map Node.plugins := by
    intro heap
    have kept : (heap.modify address (Node.putService added)).map Node.plugins =
        (heap.map Node.plugins).modify address id :=
      map_modify keepsPlugins heap address
    rw [kept, List.modify_id]
  refine ⟨⟨same.nodes, ?_, ?_⟩, rfl, plugged _, plugged _⟩
  · exact congrArg (fun services => Function.update services added.name (some added)) same.services
  · exact (unplugged _).trans ((congrArg (List.modify · address _) same.heap).trans (unplugged _).symm)

/-- A service that announces schemes is added as without the invalid announcements. -/
theorem addService_restrict (same : SameServices c c') (isValid : validService service = true)
    (schemed : ∀ element ∈ elementsOf ANNOUNCEMENT_TAG service, ¬Schemeless element)
    (address : Nat) :
    ∃ d d', addService address c service = .ok d ∧
      addService address c' (restrictService service) = .ok d' ∧ Kept c c' d d' := by
  obtain ⟨parsed, parses, parses'⟩ := parseService_restrict isValid schemed
  rw [addService, addService, parses, parses']
  exact ⟨_, _, rfl, rfl, .putService same address _⟩

theorem Kept.trans {e e' : Configuration} (first : Kept c c' d d') (second : Kept d d' e e') :
    Kept c c' e e' where
  same := second.same
  nodes := second.nodes.trans first.nodes
  plugins := second.plugins.trans first.plugins
  plugins' := second.plugins'.trans first.plugins'

/-- The services of a node are added as without invalid elements. -/
theorem discoveryNode_restrict (same : SameServices c c')
    (announces : (c.nodes (nodeIdOf node)).isSome = true → Announces node) :
    ∃ d d', parseServiceDiscoveryNode c node = .ok d ∧
      parseServiceDiscoveryNode c' (restrictDiscoveryNode node) = .ok d' ∧ Kept c c' d d' := by
  have sameId : nodeIdOf (restrictDiscoveryNode node) = nodeIdOf node := rfl
  have services : elementsOf SERVICE_TAG (restrictDiscoveryNode node) =
      ((elementsOf SERVICE_TAG node).filter validService).map restrictService :=
    elementsOf_restrict fun _ => rfl
  rw [parseServiceDiscoveryNode, parseServiceDiscoveryNode, sameId, services, ← same.nodes]
  cases known : c.nodes (nodeIdOf node) with
  | none => exact ⟨c, c', rfl, rfl, .refl same⟩
  | some address =>
      apply foldlM_related (Kept c c')
      · intro service _ invalid d _ _
        rw [addService, parseService_none invalid]
        rfl
      · intro service member isValid d d' kept
        have schemed := announces (by rw [known]; rfl) service member isValid
        obtain ⟨e, e', adds, adds', also⟩ := addService_restrict kept.same isValid schemed address
        exact ⟨e, e', adds, adds', kept.trans also⟩
      · exact .refl same

/-- A node with an announcement without a scheme is not read. -/
theorem discoveryNode_schemeless (known : (c.nodes (nodeIdOf node)).isSome = true)
    (schemeless : ¬Announces node) (d : Configuration) :
    parseServiceDiscoveryNode c node ≠ .ok d := by
  intro reads
  rw [Announces] at schemeless
  push Not at schemeless
  obtain ⟨service, member, isValid, element, isAnnouncement, isSchemeless⟩ := schemeless
  obtain ⟨address, isKnown⟩ := Option.isSome_iff_exists.mp known
  rw [parseServiceDiscoveryNode, isKnown] at reads
  obtain ⟨before, after, _, adds⟩ :=
    foldlM_ok_step (fun _ => True) (fun _ _ _ _ _ _ => trivial) trivial member reads
  rw [addService] at adds
  cases parses : parseService service with
  | ok parsed => exact parseService_schemeless isValid isAnnouncement isSchemeless parsed parses
  | error thrown =>
      rw [parses] at adds
      cases adds

theorem addService_nodes {address : Nat} (adds : addService address c service = .ok d) :
    d.nodes = c.nodes := by
  rw [addService] at adds
  cases parses : parseService service with
  | error thrown =>
      rw [parses] at adds
      cases adds
  | ok parsed =>
      rw [parses] at adds
      cases parsed with
      | none =>
          cases adds
          rfl
      | some parsed =>
          cases adds
          rfl

theorem discoveryNode_nodes (reads : parseServiceDiscoveryNode c node = .ok d) :
    d.nodes = c.nodes := by
  rw [parseServiceDiscoveryNode] at reads
  cases known : c.nodes (nodeIdOf node) with
  | none =>
      rw [known] at reads
      cases reads
      rfl
  | some address =>
      rw [known] at reads
      exact foldlM_keeps (fun e => e.nodes = c.nodes)
        (fun _ _ _ _ same adds => (addService_nodes adds).trans same) rfl reads

/-- A node that is valid is entered. -/
theorem addNode_eq (isValid : validNode node = true) :
    addNode c node = {
      heap := c.heap ++ [{
        id := nodeIdOf node
        plugins := (elementsOf PLUGIN_TAG node).foldl (addPlugin c.heap.length) fun _ => none
        services := fun _ => none }]
      nodes := Function.update c.nodes (nodeIdOf node) (some c.heap.length)
      services := c.services } := by
  rw [validNode, bne_iff_ne] at isValid
  rw [addNode, parseNode, if_neg isValid]

theorem addNode_invalid (invalid : validNode node = false) : addNode c node = c := by
  rw [validNode, bne_eq_false_iff_eq] at invalid
  rw [addNode, parseNode, if_pos invalid]

/-- A valid node is entered as without invalid elements, but for plugins that lose their servers. -/
theorem addNode_restrict (same : SameServices c c') (isValid : validNode node = true) :
    SameServices (addNode c node) (addNode c' (restrictNode node)) ∧
      ((addNode c node).plugins = (addNode c' (restrictNode node)).plugins ↔
        c.plugins = c'.plugins ∧ KeepsServers node) := by
  have restricted : validNode (restrictNode node) = true := isValid
  have sameId : nodeIdOf (restrictNode node) = nodeIdOf node := rfl
  rw [addNode_eq isValid, addNode_eq restricted, sameId, ← same.length]
  refine ⟨⟨?_, same.services, ?_⟩, ?_⟩
  · exact congrArg (Function.update · _ _) same.nodes
  · rw [List.map_append, List.map_append, same.heap]
    rfl
  · rw [Configuration.plugins, Configuration.plugins, List.map_append, List.map_append]
    have size : (c.heap.map Node.plugins).length = (c'.heap.map Node.plugins).length := by
      rw [List.length_map, List.length_map, same.length]
    rw [List.map_singleton, List.map_singleton, ← plugins_restrict_iff c.heap.length]
    constructor
    · intro samePlugins
      have split := List.append_inj samePlugins size
      exact ⟨split.1, (List.singleton_inj.mp split.2).symm⟩
    · rintro ⟨samePlugins, entered⟩
      exact congrArg₂ (· ++ [·]) samePlugins entered.symm

/-- The nodes of an element are entered as without invalid elements. -/
theorem addNodes_restrict (list : List XMLElement) (same : SameServices c c') :
    SameServices (list.foldl addNode c)
        (((list.filter validNode).map restrictNode).foldl addNode c') ∧
      ((list.foldl addNode c).plugins =
          (((list.filter validNode).map restrictNode).foldl addNode c').plugins ↔
        c.plugins = c'.plugins ∧ ∀ node ∈ list, validNode node = true → KeepsServers node) := by
  induction list generalizing c c' with
  | nil => exact ⟨same, by simp⟩
  | cons node list ih =>
      cases isValid : validNode node with
      | false =>
          rw [List.filter_cons_of_neg (by rw [isValid]; decide), List.foldl_cons,
            addNode_invalid isValid]
          refine ⟨(ih same).1, (ih same).2.trans (and_congr_right fun _ => ?_)⟩
          rw [List.forall_mem_cons, isValid]
          simp
      | true =>
          rw [List.filter_cons_of_pos isValid, List.map_cons, List.foldl_cons, List.foldl_cons]
          obtain ⟨next, plugins⟩ := addNode_restrict same isValid
          refine ⟨(ih next).1, (ih next).2.trans ?_⟩
          rw [plugins, List.forall_mem_cons, and_assoc]
          exact and_congr_right fun _ => and_congr_left fun _ => by simp [isValid]

/-- The ids that are known are those of the nodes until now. -/
theorem addNodes_known (list : List XMLElement) (id : UInt32) :
    ((list.foldl addNode c).nodes id).isSome = true ↔
      (c.nodes id).isSome = true ∨ id ∈ (list.filter validNode).map nodeIdOf := by
  induction list generalizing c with
  | nil => simp
  | cons node list ih =>
      rw [List.foldl_cons, ih]
      cases isValid : validNode node with
      | false =>
          rw [List.filter_cons_of_neg (by rw [isValid]; decide), addNode_invalid isValid]
      | true =>
          rw [List.filter_cons_of_pos isValid, addNode_eq isValid, List.map_cons, List.mem_cons]
          by_cases isId : id = nodeIdOf node
          · subst isId
            simp
          · simp [isId]

/-- The nodes of the service discovery are read as without invalid elements. -/
theorem serviceDiscovery_restrict (same : SameServices c c') (unknown : c.nodes 0 = none)
    (announces : ∀ node ∈ elementsOf NODE_TAG element,
      (c.nodes (nodeIdOf node)).isSome = true → Announces node) :
    ∃ d d', parseServiceDiscovery c element = .ok d ∧
      parseServiceDiscovery c' (restrict NODE_TAG validNode restrictDiscoveryNode element) = .ok d' ∧
        Kept c c' d d' := by
  have nodes : elementsOf NODE_TAG (restrict NODE_TAG validNode restrictDiscoveryNode element) =
      ((elementsOf NODE_TAG element).filter validNode).map restrictDiscoveryNode :=
    elementsOf_restrict fun _ => rfl
  rw [parseServiceDiscovery, parseServiceDiscovery, nodes]
  apply foldlM_related (Kept c c')
  · intro node _ invalid d _ kept
    rw [validNode, bne_eq_false_iff_eq] at invalid
    rw [parseServiceDiscoveryNode, kept.nodes, invalid, unknown]
  · intro node member _ d d' kept
    have known := announces node member
    rw [← kept.nodes] at known
    obtain ⟨e, e', reads, reads', also⟩ := discoveryNode_restrict kept.same known
    exact ⟨e, e', reads, reads', kept.trans also⟩
  · exact .refl same

theorem hasTag_restrictSection (tag : List UInt8) (element : XMLElement) :
    hasTag tag (restrictSection element) = hasTag tag element := by
  rw [restrictSection]
  split
  · rfl
  · split
    · rfl
    · rfl

/-- From where a configuration has been read without a difference but for plugins, the rest is read
with the same result if the plugins are the same and the rest is readable. -/
theorem sections_restrict_iff (list : List XMLElement) {known : List UInt32}
    (same : SameServices c c') (knows : ∀ id, (c.nodes id).isSome = true ↔ id ∈ known)
    (nonzero : 0 ∉ known) :
    (∃ d, list.foldlM parseSection c = .ok d ∧
        (list.map restrictSection).foldlM parseSection c' = .ok d) ↔
      c.plugins = c'.plugins ∧ Readable known list := by
  induction list generalizing c c' known with
  | nil =>
      rw [← same.eq_iff]
      constructor
      · rintro ⟨d, isConfiguration, isConfiguration'⟩
        cases isConfiguration
        cases isConfiguration'
        exact ⟨rfl, trivial⟩
      · rintro ⟨rfl, _⟩
        exact ⟨c, rfl, rfl⟩
  | cons element list ih =>
      rw [List.map_cons, Readable]
      by_cases nodes : hasTag NODES_TAG element = true
      · have reads : parseSection c element = .ok (parseNodes c element) := by
          rw [parseSection, if_pos nodes]
        have changed : restrictSection element = restrict NODE_TAG validNode restrictNode element := by
          rw [restrictSection, if_pos nodes]
        have valid : elementsOf NODE_TAG (restrict NODE_TAG validNode restrictNode element) =
            ((elementsOf NODE_TAG element).filter validNode).map restrictNode :=
          elementsOf_restrict fun _ => rfl
        have reads' : parseSection c' (restrictSection element) = .ok
            ((((elementsOf NODE_TAG element).filter validNode).map restrictNode).foldl addNode c') := by
          rw [parseSection, hasTag_restrictSection, if_pos nodes, changed, parseNodes, valid]
        obtain ⟨next, plugins⟩ := addNodes_restrict (elementsOf NODE_TAG element) same
        rw [foldlM_cons_ok reads, foldlM_cons_ok reads', if_pos nodes, ← and_assoc, ← plugins]
        refine ih next (fun id => ?_) ?_
        · rw [parseNodes, addNodes_known, knows, idsIn, List.mem_append]
        · rw [List.mem_append, not_or]
          refine ⟨nonzero, fun member => ?_⟩
          obtain ⟨node, isNode, isZero⟩ := List.mem_map.mp member
          have isValid := (List.mem_filter.mp isNode).2
          rw [validNode, isZero] at isValid
          cases isValid
      rw [if_neg nodes]
      by_cases discovery : hasTag SERVICE_DISCOVERY_TAG element = true
      · have reads : parseSection c element = parseServiceDiscovery c element := by
          rw [parseSection, if_neg nodes, if_pos discovery]
        have reads' : parseSection c' (restrictSection element) = parseServiceDiscovery c'
            (restrict NODE_TAG validNode restrictDiscoveryNode element) := by
          rw [parseSection, hasTag_restrictSection, hasTag_restrictSection, if_neg nodes,
            if_pos discovery, restrictSection, if_neg nodes, if_pos discovery]
        rw [if_pos discovery]
        by_cases announces : ∀ node ∈ elementsOf NODE_TAG element,
            nodeIdOf node ∈ known → Announces node
        · have unknown : c.nodes 0 = none := by
            rw [← Option.not_isSome_iff_eq_none, knows]
            exact nonzero
          obtain ⟨d, d', ends, ends', kept⟩ := serviceDiscovery_restrict same unknown
            fun node member isKnown => announces node member ((knows _).mp isKnown)
          rw [foldlM_cons_ok (reads.trans ends), foldlM_cons_ok (reads'.trans ends'),
            ih kept.same (fun id => by rw [kept.nodes, knows]) nonzero, kept.plugins, kept.plugins',
            and_iff_right announces]
        · refine iff_of_false ?_ fun both => announces both.2.1
          rintro ⟨d, ends, _⟩
          push Not at announces
          obtain ⟨node, member, isKnown, schemeless⟩ := announces
          rw [List.foldlM_cons, reads] at ends
          cases read : parseServiceDiscovery c element with
          | error thrown =>
              rw [read] at ends
              cases ends
          | ok e =>
              obtain ⟨before, after, sameNodes, steps⟩ := foldlM_ok_step
                (fun e => e.nodes = c.nodes)
                (fun _ _ _ _ same reads => (discoveryNode_nodes reads).trans same) rfl member read
              refine discoveryNode_schemeless ?_ schemeless after steps
              rw [sameNodes]
              exact (knows _).mpr isKnown
      · have reads : ∀ e : Configuration, parseSection e element = .ok e := fun e => by
          rw [parseSection, if_neg nodes, if_neg discovery]
        have unchanged : restrictSection element = element := by
          rw [restrictSection, if_neg nodes, if_neg discovery]
        rw [if_neg discovery, unchanged, foldlM_cons_ok (reads c), foldlM_cons_ok (reads c')]
        exact ih same knows nonzero

end Configurations

/-- A configuration is read, and is the one without the invalid elements, if and only if the
elements of the root are readable. -/
theorem readsConfiguration_iff {elements : List XMLElement} {rootNode : XMLElement}
    (hasRoot : elements.find? (hasTag ROOT_TAG) = some rootNode) :
    Reads elements ↔ Readable [] rootNode.children := by
  have hasRoot' : (restrictDoc elements).find? (hasTag ROOT_TAG) = some (restrictRoot rootNode) := by
    have sameTag : ∀ element, hasTag ROOT_TAG (if hasTag ROOT_TAG element then restrictRoot element
        else element) = hasTag ROOT_TAG element := by
      intro element
      split
      · rfl
      · rfl
    have isRoot := List.find?_some hasRoot
    rw [restrictDoc, List.find?_map]
    have same : (hasTag ROOT_TAG ∘ fun element =>
        if hasTag ROOT_TAG element then restrictRoot element else element) = hasTag ROOT_TAG :=
      funext sameTag
    rw [same, hasRoot, Option.map_some, if_pos isRoot]
  have start : SameServices Configuration.empty Configuration.empty := ⟨rfl, rfl, rfl⟩
  have knows : ∀ id, (Configuration.empty.nodes id).isSome = true ↔ id ∈ ([] : List UInt32) := by
    intro id
    simp [Configuration.empty]
  have sections := sections_restrict_iff rootNode.children start knows List.not_mem_nil
  rw [and_iff_right rfl] at sections
  rw [Reads, ← sections]
  have some_iff : ∀ (result : Except Failure Configuration) (d : Configuration),
      some <$> result = .ok (some d) ↔ result = .ok d := by
    intro result d
    cases result with
    | error thrown => exact iff_of_false (fun same => by cases same) fun same => by cases same
    | ok e => exact ⟨fun same => by cases same; rfl, fun same => by cases same; rfl⟩
  refine exists_congr fun d => ?_
  rw [read, read]
  simp only [hasRoot, hasRoot']
  rw [some_iff, some_iff]
  rfl

/-- A root with the node 1, a plugin of it, and a service on it. -/
def rootOf (servers announcements : List XMLElement) : XMLElement :=
  let nodeId := (NODE_ID_ATTR, String.valueOf "1")
  let plugin := [(PLUGIN_SCHEME_ATTR, String.valueOf "mindroid"),
    (PLUGIN_CLASS_ATTR, String.valueOf "mindroid::Mindroid")]
  let service := [(SERVICE_ID_ATTR, String.valueOf "1"), (SERVICE_NAME_ATTR, String.valueOf "eliza")]
  ⟨ROOT_TAG, [], [
    ⟨NODES_TAG, [], [⟨NODE_TAG, [nodeId], [⟨PLUGIN_TAG, plugin, servers⟩]⟩]⟩,
    ⟨SERVICE_DISCOVERY_TAG, [], [⟨NODE_TAG, [nodeId], [⟨SERVICE_TAG, service, announcements⟩]⟩]⟩]⟩

def server (uri : List UInt8) : XMLElement :=
  ⟨SERVER_TAG, [(SERVER_URI_ATTR, uri)], []⟩

def announcement (interfaceDescriptor : List UInt8) : XMLElement :=
  ⟨ANNOUNCEMENT_TAG, [(ANNOUNCEMENT_INTERFACE_DESCRIPTOR_ATTR, interfaceDescriptor)], []⟩

/-- A document whose only announcement is not one. -/
theorem readsConfiguration_iff_unannounced : Reads [rootOf [server []] [announcement []]] ↔
    Readable [] (rootOf [server []] [announcement []]).children :=
  readsConfiguration_iff rfl

/-- Whether the plugin of the first node has a server. -/
def hasServer (result : Except Failure (Option Configuration)) : Option Bool := do
  let configuration ← (← result.toOption)
  let node ← configuration.heap.head?
  let plugin ← node.plugins (String.valueOf "mindroid")
  return plugin.server.isSome

/-- An announcement without a scheme ends the reading, and a server without a URI takes the place of
the one before it. -/
theorem invalid_not_skipped :
    ¬Reads [rootOf [] [announcement (String.valueOf "eliza")]] ∧
      ¬Reads [rootOf [server (String.valueOf "tcp://localhost:1234"), server []] []] := by
  constructor
  · rintro ⟨configuration, reads, _⟩
    have throws : read (some [rootOf [] [announcement (String.valueOf "eliza")]]) =
        .error .nullPointer := rfl
    cases throws.symm.trans reads
  · rintro ⟨configuration, reads, reads'⟩
    have replaced : hasServer (read (some
        [rootOf [server (String.valueOf "tcp://localhost:1234"), server []] []])) =
          some false := by decide +kernel
    have kept : hasServer (read (some (restrictDoc
        [rootOf [server (String.valueOf "tcp://localhost:1234"), server []] []]))) =
          some true := by decide +kernel
    rw [reads, ← reads', kept] at replaced
    cases replaced

end ServiceDiscoveryConfigurationReader

end Mindroid
