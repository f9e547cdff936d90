import Mindroid.Tinyxml2.XMLElement

/-!
# The package manager

The name of a service in a manifest is that of its class, behind a dot or behind the name of the
package and a dot.  A name that begins with the name of the package, but has no dot behind it, is
cut at the wrong place.
-/

set_option autoImplicit false

namespace Mindroid

namespace PackageManagerService

def SERVICE_TAG : List UInt8 :=
  String.valueOf "service"

/-- `ServiceInfo::FLAG_AUTO_START`. -/
def FLAG_AUTO_START : Int32 :=
  1

structure ApplicationInfo where
  packageName : List UInt8
  processName : Option (List UInt8)
  enabled : Bool
  deriving DecidableEq

structure ServiceInfo where
  name : List UInt8
  packageName : List UInt8
  applicationInfo : ApplicationInfo
  processName : List UInt8
  enabled : Bool
  flags : Int32
  deriving DecidableEq

/-- The name of the class in the attribute `mindroid:name`. -/
def parseName (packageName value : List UInt8) : Except Failure (Option (List UInt8)) :=
  let name := String.cStr value
  if String.startsWith name (String.valueOf ".") then
    some <$> String.substringFrom name 1
  else if String.startsWith name packageName then
    some <$> String.substringFrom name (packageName.length + 1)
  else
    .ok none

def parseService (ai : ApplicationInfo) (serviceNode : XMLElement) :
    Except Failure (Option ServiceInfo) := do
  let name ←
    match serviceNode.findAttribute (String.valueOf "mindroid:name") with
    | some value => parseName ai.packageName value
    | none => .ok none
  let processName :=
    match serviceNode.findAttribute (String.valueOf "mindroid:process") with
    | some value => String.cStr value
    | none => ai.packageName
  let enabled :=
    match serviceNode.findAttribute (String.valueOf "mindroid:enabled") with
    | some value => XMLAttribute.boolValue value
    | none => true
  let autostart :=
    match serviceNode.findAttribute (String.valueOf "mindroid:autostart") with
    | some value => XMLAttribute.boolValue value
    | none => false
  match name with
  | none => return none
  | some name =>
      if name.length = 0 then
        return none
      else
        return some {
          name := name
          packageName := ai.packageName
          applicationInfo := ai
          processName := processName
          enabled := enabled
          flags := if autostart then 0 ||| FLAG_AUTO_START else 0 }

/-- Whether the loop in `parseApplication` takes an element for a service. -/
def isService (element : XMLElement) : Bool :=
  String.equals SERVICE_TAG element.name

/-- The loop in `parseApplication`. -/
def addServices (ai : ApplicationInfo) (services : List ServiceInfo) :
    List XMLElement → Except Failure (List ServiceInfo)
  | [] => .ok services
  | element :: later =>
      if isService element then do
        match ← parseService ai element with
        | some si => addServices ai (services ++ [si]) later
        | none => addServices ai services later
      else
        addServices ai services later

/-- What `parseApplication` changes in the application. -/
def parseAttributes (ai : ApplicationInfo) (applicationNode : XMLElement) : ApplicationInfo where
  packageName := ai.packageName
  processName :=
    match applicationNode.findAttribute (String.valueOf "process") with
    | some value => some (String.cStr value)
    | none => ai.processName
  enabled :=
    match applicationNode.findAttribute (String.valueOf "enabled") with
    | some value => XMLAttribute.boolValue value
    | none => ai.enabled

def parseApplication (ai : ApplicationInfo) (applicationNode : XMLElement) :
    Except Failure (ApplicationInfo × List ServiceInfo) := do
  let ai := parseAttributes ai applicationNode
  let services ← addServices ai [] applicationNode.children
  return (ai, services)

/-! ## The names of services -/

/-- A name in a manifest stands for a class in a package. -/
def StandsFor (packageName value name : List UInt8) : Prop :=
  name ≠ [] ∧ (value = 46 :: name ∨ value = packageName ++ 46 :: name)

/-- A service is accepted if its name stands for a class, and has the name of the class then. -/
def Parses (ai : ApplicationInfo) (serviceNode : XMLElement) : Prop :=
  ∃ result, parseService ai serviceNode = .ok result ∧
    ∀ name, (∃ si, result = some si ∧ si.name = name) ↔
      ∃ value, serviceNode.findAttribute (String.valueOf "mindroid:name") = some value ∧
        StandsFor ai.packageName (String.cStr value) name

/-- The services that are accepted are those of the application. -/
structure ParsesServices (ai : ApplicationInfo) (applicationNode : XMLElement) : Prop where
  each : ∀ element ∈ applicationNode.children, isService element = true →
    Parses (parseAttributes ai applicationNode) element
  all : parseApplication ai applicationNode = .ok (parseAttributes ai applicationNode,
    (applicationNode.children.filter isService).filterMap fun element =>
      (parseService (parseAttributes ai applicationNode) element).toOption.join)

/-- There is a dot behind the name of the package, or one other character, or the value does not
begin with the name of the package. -/
def Separated (packageName : List UInt8) (serviceNode : XMLElement) : Prop :=
  ∀ value, serviceNode.findAttribute (String.valueOf "mindroid:name") = some value →
    String.cStr value ≠ packageName ∧
      ¬∃ c name, c ≠ 46 ∧ name ≠ [] ∧ String.cStr value = packageName ++ c :: name

section Name

variable {packageName value : List UInt8}

theorem startsWith_dot_iff :
    String.startsWith (String.cStr value) (String.valueOf ".") = true ↔
      ∃ name, String.cStr value = 46 :: name := by
  rw [String.startsWith_iff (String.nonzero_cStr value)]
  exact ⟨fun ⟨name, same⟩ => ⟨name, same.symm⟩, fun ⟨name, same⟩ => ⟨name, same.symm⟩⟩

theorem parseName_dot {name : List UInt8} (named : String.cStr value = 46 :: name) :
    parseName packageName value = .ok (some name) := by
  rw [parseName]
  simp only [startsWith_dot_iff.mpr ⟨name, named⟩, if_true]
  rw [named, String.substringFrom_ok (Nat.succ_le_succ (Nat.zero_le _))]
  rfl

/-- What is behind the name of the package and one more character is cut out. -/
theorem parseName_package (noDot : ¬∃ name, String.cStr value = 46 :: name) {rest : List UInt8}
    (named : String.cStr value = packageName ++ rest) :
    parseName packageName value =
      if rest = [] then .error .indexOutOfBoundsException else .ok (some rest.tail) := by
  have starts : String.startsWith (String.cStr value) packageName = true := by
    rw [String.startsWith_iff (String.nonzero_cStr value)]
    exact ⟨rest, named.symm⟩
  rw [parseName]
  simp only [if_neg (fun dot => noDot (startsWith_dot_iff.mp dot)), starts, if_true]
  cases rest with
  | nil =>
      rw [named, List.append_nil, String.substringFrom, if_pos (Nat.lt_succ_self _), if_pos rfl]
      rfl
  | cons c name =>
      rw [named, String.substringFrom_ok (by simp), if_neg (List.cons_ne_nil _ _), ← List.drop_drop,
        List.drop_left]
      rfl

theorem parseName_other (noDot : ¬∃ name, String.cStr value = 46 :: name)
    (noPackage : ¬packageName <+: String.cStr value) :
    parseName packageName value = .ok none := by
  rw [parseName]
  simp only [if_neg (fun dot => noDot (startsWith_dot_iff.mp dot)), if_neg (fun starts =>
    noPackage ((String.startsWith_iff (String.nonzero_cStr value)).mp starts))]

end Name

section Services

variable {ai : ApplicationInfo} {serviceNode : XMLElement}

/-- A service without a name is not accepted. -/
theorem parses_unnamed
    (unnamed : serviceNode.findAttribute (String.valueOf "mindroid:name") = none) :
    Parses ai serviceNode := by
  refine ⟨none, ?_, fun name => iff_of_false ?_ ?_⟩
  · rw [parseService, unnamed]
    rfl
  · rintro ⟨si, accepted, _⟩
    cases accepted
  · rintro ⟨value, named, _⟩
    cases unnamed.symm.trans named

/-- What becomes of a service whose name has been cut out. -/
theorem parses_named_iff {value : List UInt8} {cut : Option (List UInt8)}
    (named : serviceNode.findAttribute (String.valueOf "mindroid:name") = some value)
    (isName : parseName ai.packageName value = .ok cut) :
    Parses ai serviceNode ↔
      ∀ name, cut = some name ∧ name ≠ [] ↔
        StandsFor ai.packageName (String.cStr value) name := by
  have same : ∀ name, (∃ other, serviceNode.findAttribute (String.valueOf "mindroid:name") =
      some other ∧ StandsFor ai.packageName (String.cStr other) name) ↔
        StandsFor ai.packageName (String.cStr value) name := by
    intro name
    rw [named]
    simp
  have parsed : ∃ result, parseService ai serviceNode = .ok result ∧
      ∀ name, (∃ si, result = some si ∧ si.name = name) ↔ cut = some name ∧ name ≠ [] := by
    rw [parseService, named]
    change ∃ result, (parseName ai.packageName value >>= _) = _ ∧ _
    rw [isName]
    cases cut with
    | none => exact ⟨none, rfl, fun name => by simp⟩
    | some cut =>
        cases cut with
        | nil => exact ⟨none, rfl, fun name => by simp⟩
        | cons c rest =>
            refine ⟨some _, rfl, fun name => ?_⟩
            simp
            rintro rfl
            exact List.cons_ne_nil _ _
  rcases parsed with ⟨result, parses, accepted⟩
  constructor
  · rintro ⟨other, alsoParses, stands⟩ name
    cases parses.symm.trans alsoParses
    rw [← accepted, stands, same]
  · intro stands
    exact ⟨result, parses, fun name => by rw [accepted, stands, same]⟩

/-- A service whose name is too short ends the parsing. -/
theorem not_parses {value : List UInt8} {thrown : Failure}
    (named : serviceNode.findAttribute (String.valueOf "mindroid:name") = some value)
    (throws : parseName ai.packageName value = .error thrown) : ¬Parses ai serviceNode := by
  rintro ⟨result, parses, _⟩
  rw [parseService, named] at parses
  change (parseName ai.packageName value >>= _) = _ at parses
  rw [throws] at parses
  cases parses

/-- A service is parsed as its name says if and only if the name is separated. -/
theorem parses_service_iff (nonempty : ai.packageName ≠ [])
    (noDot : ai.packageName.head? ≠ some 46) :
    Parses ai serviceNode ↔ Separated ai.packageName serviceNode := by
  cases named : serviceNode.findAttribute (String.valueOf "mindroid:name") with
  | none =>
      refine iff_of_true (parses_unnamed named) fun value found => ?_
      cases named.symm.trans found
  | some value =>
      have separated : Separated ai.packageName serviceNode ↔
          String.cStr value ≠ ai.packageName ∧
            ¬∃ c name, c ≠ 46 ∧ name ≠ [] ∧ String.cStr value = ai.packageName ++ c :: name := by
        rw [Separated, named]
        simp
      have packageFirst : ∀ {rest name : List UInt8}, ai.packageName ++ rest ≠ 46 :: name := by
        intro rest name same
        cases isPackage : ai.packageName with
        | nil => exact nonempty isPackage
        | cons c package =>
            rw [isPackage] at same noDot
            exact noDot (congrArg List.head? same)
      rw [separated]
      by_cases dot : ∃ name, String.cStr value = 46 :: name
      · rcases dot with ⟨rest, isDot⟩
        rw [parses_named_iff named (parseName_dot isDot), isDot]
        refine iff_of_true (fun name => ?_) ⟨fun same => ?_, ?_⟩
        · rw [StandsFor, List.cons.injEq, Option.some.injEq, and_comm]
          simp [packageFirst.symm]
        · exact packageFirst ((List.append_nil _).trans same.symm)
        · rintro ⟨c, name, _, _, same⟩
          exact packageFirst same.symm
      by_cases package : ai.packageName <+: String.cStr value
      · rcases package with ⟨rest, isPackage⟩
        have cut := parseName_package dot isPackage.symm
        cases rest with
        | nil =>
            rw [List.append_nil] at isPackage
            rw [if_pos rfl] at cut
            exact iff_of_false (not_parses named cut) fun both => both.1 isPackage.symm
        | cons c rest =>
            rw [if_neg (List.cons_ne_nil _ _), List.tail_cons] at cut
            have longer : ai.packageName ++ c :: rest ≠ ai.packageName := fun same =>
              List.cons_ne_nil c rest (List.append_right_eq_self.mp same)
            rw [parses_named_iff named cut, ← isPackage, and_iff_right longer]
            simp only [StandsFor, packageFirst, false_or, List.append_cancel_left_eq,
              List.cons.injEq, Option.some.injEq]
            constructor
            · rintro stands ⟨_, name, other, nonempty, rfl, rfl⟩
              exact other ((stands rest).mp ⟨rfl, nonempty⟩).2.1
            · intro separated name
              constructor
              · rintro ⟨rfl, nonempty⟩
                exact ⟨nonempty, by_contra fun other =>
                  separated ⟨c, rest, other, nonempty, rfl, rfl⟩, rfl⟩
              · rintro ⟨nonempty, _, isName⟩
                exact ⟨isName, nonempty⟩
      · rw [parses_named_iff named (parseName_other dot package)]
        refine iff_of_true (fun name => iff_of_false ?_ ?_) ⟨fun same => ?_, ?_⟩
        · rintro ⟨none, _⟩
          cases none
        · rintro ⟨_, isDot | isPackage⟩
          · exact dot ⟨name, isDot⟩
          · exact package ⟨46 :: name, isPackage.symm⟩
        · exact package (same ▸ List.prefix_refl _)
        · rintro ⟨c, name, _, _, isPackage⟩
          exact package ⟨c :: name, isPackage.symm⟩

theorem addServices_ok {elements : List XMLElement}
    (parses : ∀ element ∈ elements, isService element = true → Parses ai element)
    (services : List ServiceInfo) :
    addServices ai services elements = .ok (services ++
      (elements.filter isService).filterMap fun element =>
        (parseService ai element).toOption.join) := by
  induction elements generalizing services with
  | nil => exact congrArg Except.ok (List.append_nil _).symm
  | cons element later ih =>
      have rest := ih fun other member => parses other (List.mem_cons_of_mem _ member)
      rw [addServices]
      by_cases service : isService element = true
      · rcases parses element List.mem_cons_self service with ⟨result, parsed, _⟩
        rw [if_pos service, parsed, List.filter_cons_of_pos service]
        change (match result with | some si => _ | none => _) = _
        cases result with
        | none =>
            rw [List.filterMap_cons_none (by rw [parsed]; rfl)]
            exact rest services
        | some si =>
            rw [List.filterMap_cons_some (b := si) (by rw [parsed]; rfl)]
            exact (rest _).trans (congrArg Except.ok (List.append_assoc _ _ _))
      · rw [if_neg service, List.filter_cons_of_neg service]
        exact rest services

end Services

/-- The services of an application are those whose names stand for classes, and all of them are
parsed, if and only if every name is separated. -/
theorem parsesServices_iff {ai : ApplicationInfo} (applicationNode : XMLElement)
    (nonempty : ai.packageName ≠ []) (noDot : ai.packageName.head? ≠ some 46) :
    ParsesServices ai applicationNode ↔
      ∀ element ∈ applicationNode.children, isService element = true →
        Separated ai.packageName element := by
  have each : ∀ element, Parses (parseAttributes ai applicationNode) element ↔
      Separated ai.packageName element := fun element => parses_service_iff nonempty noDot
  constructor
  · intro parses element member service
    exact (each element).mp (parses.each element member service)
  · intro separated
    have parses : ∀ element ∈ applicationNode.children, isService element = true →
        Parses (parseAttributes ai applicationNode) element := fun element member service =>
      (each element).mpr (separated element member service)
    refine ⟨parses, ?_⟩
    rw [parseApplication, addServices_ok parses]
    rfl

/-- An application of the package `examples`. -/
def examples : ApplicationInfo where
  packageName := String.valueOf "examples"
  processName := none
  enabled := true

/-- An application with one service. -/
def applicationOf (name : List UInt8) : XMLElement where
  name := String.valueOf "application"
  attributes := []
  children := [⟨SERVICE_TAG, [(String.valueOf "mindroid:name", name)], []⟩]

theorem parsesServices_iff_logger :
    ParsesServices examples (applicationOf (String.valueOf "examples.Logger")) ↔
      ∀ element ∈ (applicationOf (String.valueOf "examples.Logger")).children,
        isService element = true → Separated examples.packageName element :=
  parsesServices_iff _ (by decide) (by decide)

/-- The name of the package alone is cut behind its end, and one that begins like it is taken for a
name in it. -/
theorem cuts_other_names :
    parseApplication examples (applicationOf (String.valueOf "examples")) =
        .error .indexOutOfBoundsException ∧
      ¬ParsesServices examples (applicationOf (String.valueOf "examples")) ∧
      ¬ParsesServices examples (applicationOf (String.valueOf "examples2Logger")) := by
  have throws : parseApplication examples (applicationOf (String.valueOf "examples")) =
      .error .indexOutOfBoundsException := by decide +kernel
  refine ⟨throws, fun parses => ?_, fun parses => ?_⟩
  · cases throws.symm.trans parses.all
  · rcases parses.each _ (List.mem_singleton_self _) rfl with ⟨result, parsed, stands⟩
    have accepted : parseService (parseAttributes examples
        (applicationOf (String.valueOf "examples2Logger")))
          ⟨SERVICE_TAG, [(String.valueOf "mindroid:name", String.valueOf "examples2Logger")], []⟩ =
        .ok (some ⟨String.valueOf "Logger", String.valueOf "examples", examples,
          String.valueOf "examples", true, 0⟩) := by
      decide +kernel
    cases accepted.symm.trans parsed
    rcases (stands (String.valueOf "Logger")).mp ⟨_, rfl, rfl⟩ with ⟨value, named, _, same⟩
    cases named
    revert same
    decide

end PackageManagerService

end Mindroid
