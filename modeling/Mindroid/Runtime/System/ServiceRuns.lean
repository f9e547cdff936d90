import Mindroid.Foundation.Transition
import Mindroid.Runtime.System.ServiceProxies

/-!
# Runs of services

The table of services and stubs holds what the directory has, as long as what is removed can be
told from the rest by its id.
-/

set_option autoImplicit false

namespace Mindroid

open Foundation

/-! ## The table -/

namespace Registry

variable {registry : Registry}

theorem checkService_ok {uri : Option URI} {service : Option (IBinder Nat)} {found : URI}
    {binder : Nat} (checked : registry.checkService uri service = .ok (found, binder)) :
    uri = some found ∧ service = some (.binder binder) := by
  refine ⟨?_, (checkService_binder registry checked).1⟩
  unfold checkService at checked
  split at checked
  · split at checked
    · cases checked
    · split at checked
      · split at checked
        · split at checked
          · cases checked
            rfl
          · cases checked
        · cases checked
      · cases checked
  · cases checked

theorem containsService_eq (uri : URI) :
    registry.containsService uri = (registry.mServices.lookup uri.mString).isSome := by
  unfold containsService
  induction registry.mServices with
  | nil => rfl
  | cons entry entries ih =>
      by_cases same : uri.mString = entry.1
      · simp [same]
      · have other : (uri.mString == entry.1) = false := by simpa using same
        have turned : (entry.1 == uri.mString) = false := by simpa using Ne.symm same
        rw [List.any_cons, turned, Bool.false_or, ih, List.lookup_cons, other]

/-- A service is entered under a URI under which there is none. -/
theorem addService_enters {uri : Option URI} {service : Option (IBinder Nat)} {added : Registry}
    (adds : registry.addService uri service = .ok added) :
    ∃ found binder, uri = some found ∧ service = some (.binder binder) ∧
      added.mServices = if (registry.mServices.lookup found.mString).isSome then
        registry.mServices else (found.mString, binder) :: registry.mServices := by
  unfold addService at adds
  cases checked : registry.checkService uri service with
  | error failure =>
      rw [checked] at adds
      cases adds
  | ok pair =>
      rw [checked] at adds
      simp only [bind, Except.bind] at adds
      obtain ⟨isUri, isBinder⟩ := checkService_ok checked
      refine ⟨pair.1, pair.2, isUri, isBinder, ?_⟩
      unfold enterService at adds
      rw [containsService_eq] at adds
      split at adds
      case isTrue entered =>
        cases adds
        rw [if_pos entered]
      case isFalse absent =>
        rw [if_neg absent]
        cases configured : registry.configuredId pair.1 with
        | none =>
            rw [configured] at adds
            cases adds
            rfl
        | some id =>
            rw [configured] at adds
            simp only [bind, Except.bind] at adds
            cases moves : registry.moveBinder pair.2 id with
            | error failure =>
                rw [moves] at adds
                cases adds
            | ok moved =>
                rw [moves] at adds
                cases adds
                obtain ⟨_, _, _, rfl⟩ := moveBinder_cases registry moves
                rfl

end Registry

/-! ## The invariant -/

namespace Services

/-- The text of the service of which a stub is made. -/
def baseText (text : List UInt8) : List UInt8 :=
  Names.mindroidText ((URI.authorityOf text).getD [])

/-- The table holds what the directory has, each text once.  Stubs are derived under texts of other
schemes. -/
structure Inv (st : Services) : Prop where
  once : (st.names.mServices.map Prod.fst).Nodup
  entries : ∀ text, st.names.serviceAt text = st.directory.entry text
  sound : st.directory.Sound baseText
  foreign : ∀ text stub, st.directory.derived text = some stub →
    URI.schemeOf text ≠ some Runtime.MINDROID_SCHEME
  known : ∀ text binder, st.directory.entry text = some binder → binder < st.names.created
  fresh : ∀ binder, st.names.created ≤ binder → st.directory.withdrawn binder = false
  resolved : st.names.AllResolved

theorem inv_start (names : Names) : names.start.Inv where
  once := List.nodup_nil
  entries := fun _ => rfl
  sound := Directory.sound_empty _
  foreign := by rintro _ _ ⟨⟩
  known := by rintro _ _ ⟨⟩
  fresh := fun _ _ => rfl
  resolved := by rintro _ _ ⟨⟩

variable {st : Services}

/-- Only the table, the number of objects and the resolved names of a registry matter. -/
theorem Inv.of_names (inv : st.Inv) {names : Names}
    (services : names.mServices = st.names.mServices)
    (created : names.created = st.names.created) (resolved : names.AllResolved) :
    Inv ⟨names, st.directory⟩ where
  once := by rw [services]; exact inv.once
  entries := by
    intro text
    rw [Names.serviceAt, services]
    exact inv.entries text
  sound := inv.sound
  foreign := inv.foreign
  known := by rw [created]; exact inv.known
  fresh := by rw [created]; exact inv.fresh
  resolved := resolved

/-- An object is entered under a text under which nothing is found. -/
theorem Inv.front (inv : st.Inv) {next : Services} {text : List UInt8} {binder : Nat}
    (vacant : st.directory.entry text = none)
    (services : next.names.mServices = (text, binder) :: st.names.mServices)
    (entries : ∀ other, next.directory.entry other =
      if other = text then some binder else st.directory.entry other)
    (sound : next.directory.Sound baseText)
    (foreign : ∀ text stub, next.directory.derived text = some stub →
      URI.schemeOf text ≠ some Runtime.MINDROID_SCHEME)
    (more : st.names.created ≤ next.names.created) (isObject : binder < next.names.created)
    (fresh : ∀ object, next.names.created ≤ object → next.directory.withdrawn object = false)
    (resolved : next.names.AllResolved) : next.Inv where
  once := by
    rw [services, List.map_cons, List.nodup_cons]
    refine ⟨lookup_eq_none_iff_not_mem.mp ?_, inv.once⟩
    exact (inv.entries text).trans vacant
  entries := by
    intro other
    rw [Names.serviceAt, services, lookup_front, entries]
    split
    · rfl
    · exact inv.entries other
  sound := sound
  foreign := foreign
  known := by
    intro other found isFound
    rw [entries] at isFound
    split at isFound
    · cases isFound
      exact isObject
    · exact Nat.lt_of_lt_of_le (inv.known other found isFound) more
  fresh := fresh
  resolved := resolved

theorem Inv.addService (inv : st.Inv) {uri : Option MadeURI} {service : Option (IBinder Nat)}
    (refers : st.names.refersToObject service = true)
    (permitted : st.Permitted (.addService uri service)) : (st.addService uri service).Inv := by
  unfold Services.addService
  split
  case h_1 => exact inv
  case h_2 added adds =>
    obtain ⟨found, binder, isUri, rfl, services⟩ := Registry.addService_enters adds
    obtain ⟨made, rfl, rfl⟩ := Option.map_eq_some_iff.mp isUri
    have isObject : binder < st.names.created := by simpa [Names.refersToObject] using refers
    have sameEntry : st.names.mServices.lookup made.uri.mString =
        st.directory.entry made.uri.mString := inv.entries _
    rw [sameEntry] at services
    cases vacant : st.directory.entry made.uri.mString with
    | some other =>
        have kept : st.directory.register made.uri.mString binder = st.directory := by
          simp [Directory.register, vacant]
        simp only [vacant, Option.isSome_some, if_true] at services
        simp only [kept]
        exact inv.of_names services rfl inv.resolved
    | none =>
        simp only [vacant] at services
        apply inv.front vacant services
        · intro other
          simp [Directory.entry_register, vacant]
        · exact inv.sound.register permitted
        · simpa [Directory.register, vacant] using inv.foreign
        · exact Nat.le_refl _
        · exact isObject
        · intro object new
          have different : object ≠ binder := Nat.ne_of_gt (Nat.lt_of_lt_of_le isObject new)
          simpa [Directory.register, vacant, different] using inv.fresh object new
        · exact inv.resolved

/-- What is found in the table after a removal. -/
theorem Inv.serviceAt_removed (inv : st.Inv) (service : IBinder Nat) (text : List UInt8) :
    (st.removeService (some service)).names.serviceAt text = (st.directory.entry text).filter
      fun binder => (st.names.binders binder).mId != st.names.serviceId service := by
  rw [← inv.entries text]
  exact lookup_filter inv.once
    (fun binder => (st.names.binders binder).mId != st.names.serviceId service) text

/-- The ids tell what stays in the table from what is removed. -/
theorem Inv.entry_removed (inv : st.Inv) {service : IBinder Nat}
    (permitted : st.Permitted (.removeService (some service))) (text : List UInt8) :
    (st.removeService (some service)).names.serviceAt text =
      (st.removeService (some service)).directory.entry text := by
  rw [inv.serviceAt_removed]
  have ids : ∀ binder, st.directory.entry text = some binder →
      ((st.names.binders binder).mId = st.names.serviceId service ↔
        ∃ removed, service = .binder removed ∧ removed ∈ st.directory.sources binder) := by
    intro binder isEntry
    rw [← inv.entries text] at isEntry
    exact permitted _ (mem_of_lookup isEntry)
  cases service with
  | proxy proxy =>
      show _ = st.directory.entry text
      cases isEntry : st.directory.entry text with
      | none => rfl
      | some binder =>
          have apart := ids binder isEntry
          simp at apart
          simp [Option.filter, apart]
  | binder removed =>
      show _ = (st.directory.withdraw removed).entry text
      rw [Directory.entry_withdraw inv.sound.exclusive]
      cases isEntry : st.directory.entry text with
      | none => rfl
      | some binder =>
          have same := ids binder isEntry
          simp at same
          simp [Option.filter, Directory.stays, same]

theorem Inv.removeService (inv : st.Inv) {service : Option (IBinder Nat)}
    (refers : st.names.refersToObject service = true)
    (permitted : st.Permitted (.removeService service)) : (st.removeService service).Inv := by
  cases service with
  | none => exact inv.of_names rfl rfl inv.resolved
  | some service =>
      constructor
      · exact (List.filter_sublist.map Prod.fst).nodup inv.once
      · exact inv.entry_removed permitted
      · cases service with
        | proxy _ => exact inv.sound
        | binder removed => exact inv.sound.withdraw removed
      · cases service with
        | proxy _ => exact inv.foreign
        | binder removed =>
            intro text stub isDerived
            exact inv.foreign text stub (Option.eq_some_of_filter_eq_some isDerived)
      · intro text binder isEntry
        rw [← inv.entry_removed permitted, inv.serviceAt_removed] at isEntry
        exact inv.known text binder (Option.eq_some_of_filter_eq_some isEntry)
      · cases service with
        | proxy _ => exact inv.fresh
        | binder removed =>
            intro object new
            have isObject : removed < st.names.created := by
              simpa [Names.refersToObject] using refers
            have different : object ≠ removed := Nat.ne_of_gt (Nat.lt_of_lt_of_le isObject new)
            simpa [Services.removeService, Directory.withdraw, different] using inv.fresh object new
      · exact inv.resolved

end Services

/-! ## Lookups -/

namespace Names

/-- What the lookups in the table lead to. -/
inductive Finds (names : Names) (serviceUri : URI) : Found → Prop where
  | service {binder : Nat} (entered : names.serviceAt serviceUri.mString = some binder) :
      Finds names serviceUri (.service binder)
  | proxy {authority : List UInt8} (absent : names.serviceAt serviceUri.mString = none)
      (isAuthority : serviceUri.mAuthority = some authority)
      (nowhere : names.serviceAt (mindroidText authority) = none) :
      Finds names serviceUri (.proxy serviceUri)
  | stubOf {scheme authority : List UInt8} {binder : Nat}
      (absent : names.serviceAt serviceUri.mString = none)
      (isAuthority : serviceUri.mAuthority = some authority)
      (entered : names.serviceAt (mindroidText authority) = some binder)
      (isScheme : serviceUri.mScheme = some scheme) (plugged : (names.mPlugins scheme).isSome) :
      Finds names serviceUri (.stubOf serviceUri.mString binder)
  | noPlugin {scheme authority : List UInt8} {binder : Nat}
      (absent : names.serviceAt serviceUri.mString = none)
      (isAuthority : serviceUri.mAuthority = some authority)
      (entered : names.serviceAt (mindroidText authority) = some binder)
      (isScheme : serviceUri.mScheme = some scheme) (unplugged : names.mPlugins scheme = none) :
      Finds names serviceUri .noPlugin

theorem find_finds {names : Names} {uri serviceUri : URI} {scheme : List UInt8}
    (isServiceUri : serviceUriOf uri = .ok serviceUri) (schemed : serviceUri.mScheme = some scheme)
    (authorized : names.serviceAt serviceUri.mString = none → serviceUri.mAuthority.isSome) :
    ∃ found, names.find uri = .ok found ∧ names.Finds serviceUri found := by
  unfold find
  simp only [isServiceUri, bind, Except.bind]
  cases entered : names.serviceAt serviceUri.mString with
  | some binder => exact ⟨_, rfl, .service entered⟩
  | none =>
      obtain ⟨authority, isAuthority⟩ := Option.isSome_iff_exists.mp (authorized entered)
      simp only [isAuthority]
      cases base : names.serviceAt (mindroidText authority) with
      | none => exact ⟨_, rfl, .proxy entered isAuthority base⟩
      | some binder =>
          simp only [schemed, Runtime.plugin]
          cases plugged : names.mPlugins scheme with
          | none => exact ⟨_, rfl, .noPlugin entered isAuthority base schemed plugged⟩
          | some plugin =>
              exact ⟨_, rfl, .stubOf entered isAuthority base schemed (by simp [plugged])⟩

end Names

namespace Services

section Answers

variable {st : Services} {made : MadeURI} {getStub : Option Stub}

theorem getService_fails {failure : Failure} (fails : st.names.find made.uri = .error failure) :
    st.answer made.uri getStub = .error failure ∧ st.getService (some made) getStub = st := by
  have throws : st.names.getService (some made.uri) getStub = .error failure := by
    simp [Names.getService, fails, bind, Except.bind]
  constructor
  · simp [answer, throws, Except.map]
  · simp [Services.getService, throws]

theorem getService_service {binder : Nat}
    (finds : st.names.find made.uri = .ok (.service binder)) :
    st.answer made.uri getStub = .ok (some (.binder binder)) ∧
      st.getService (some made) getStub = st := by
  have returns : st.names.getService (some made.uri) getStub =
      .ok (some (.binder binder), st.names) := by
    simp [Names.getService, finds, bind, Except.bind, pure, Except.pure]
  constructor
  · simp [answer, returns, Except.map]
  · simp [Services.getService, returns, derives, finds]

theorem getService_noPlugin (finds : st.names.find made.uri = .ok .noPlugin) :
    st.answer made.uri getStub = .ok none ∧ st.getService (some made) getStub = st := by
  have returns : st.names.getService (some made.uri) getStub = .ok (none, st.names) := by
    simp [Names.getService, finds, bind, Except.bind, pure, Except.pure]
  constructor
  · simp [answer, returns, Except.map]
  · simp [Services.getService, returns, derives, finds]

theorem getService_unmade {text : List UInt8} {binder : Nat}
    (finds : st.names.find made.uri = .ok (.stubOf text binder)) :
    st.answer made.uri none = .ok none ∧ st.getService (some made) none = st := by
  have returns : st.names.getService (some made.uri) none = .ok (none, st.names) := by
    simp [Names.getService, finds, Names.enterStub, bind, Except.bind, pure, Except.pure]
  constructor
  · simp [answer, returns, Except.map]
  · simp [Services.getService, returns, derives, finds]

theorem getService_stub {text : List UInt8} {binder : Nat} (stub : Stub)
    (finds : st.names.find made.uri = .ok (.stubOf text binder)) :
    st.answer made.uri (some stub) = .ok (some (.binder st.names.created)) ∧
      st.getService (some made) (some stub) =
        { names := (st.names.enterStub text binder (some stub)).2
          directory := st.directory.derive text binder st.names.created } := by
  have returns : st.names.getService (some made.uri) (some stub) =
      .ok (some (.binder st.names.created), (st.names.enterStub text binder (some stub)).2) := by
    simp [Names.getService, finds, Names.enterStub, bind, Except.bind, pure, Except.pure]
  constructor
  · simp [answer, returns, Except.map]
  · simp [Services.getService, returns, derives, finds]

theorem getService_proxy {serviceUri : URI}
    (finds : st.names.find made.uri = .ok (.proxy serviceUri)) :
    st.answer made.uri getStub = st.proxyAnswer serviceUri ∧
      (st.getService (some made) getStub = st ∨
        ∃ proxy names, st.names.getProxy serviceUri = .ok (proxy, names) ∧
          st.getService (some made) getStub = { names := names, directory := st.directory }) := by
  cases gets : st.names.getProxy serviceUri with
  | error failure =>
      have throws : st.names.getService (some made.uri) getStub = .error failure := by
        simp [Names.getService, finds, gets, bind, Except.bind]
      constructor
      · simp [answer, proxyAnswer, throws, gets, Except.map]
      · simp [Services.getService, throws]
  | ok found =>
      have returns : st.names.getService (some made.uri) getStub =
          .ok (found.1.map .proxy, found.2) := by
        simp [Names.getService, finds, gets, bind, Except.bind, pure, Except.pure]
      constructor
      · simp [answer, proxyAnswer, returns, gets, Except.map]
      · right
        exact ⟨found.1, found.2, rfl, by simp [Services.getService, returns, derives, finds]⟩

end Answers

theorem schemeOf_mindroidText (authority : List UInt8) :
    URI.schemeOf (Names.mindroidText authority) = some Runtime.MINDROID_SCHEME :=
  URI.schemeOf_append mindroid_free (URI.slash :: URI.slash :: String.cStr authority)

/-- What is found under a text of the scheme `mindroid` was registered there. -/
theorem Inv.registered_eq {st : Services} (inv : st.Inv) {text : List UInt8}
    (mindroid : URI.schemeOf text = some Runtime.MINDROID_SCHEME) :
    st.directory.registered text = st.names.serviceAt text := by
  rw [inv.entries]
  cases derived : st.directory.derived text with
  | none => simp [Directory.entry, derived]
  | some stub => exact absurd mindroid (inv.foreign text stub derived)

theorem baseText_eq {uri : URI} {scheme authority : List UInt8} (found : uri.Matches scheme)
    (isAuthority : uri.mAuthority = some authority) :
    baseText uri.mString = Names.mindroidText authority := by
  rw [baseText, ← found.authority, isAuthority, Option.getD_some]

theorem Inv.getService {st : Services} (inv : st.Inv) {uri : Option MadeURI}
    {getStub : Option Stub} (permitted : st.Permitted (.getService uri getStub)) :
    (st.getService uri getStub).Inv := by
  cases uri with
  | none => exact inv
  | some made =>
      cases isServiceUri : Names.serviceUriOf made.uri with
      | error failure =>
          have fails : st.names.find made.uri = .error failure := by
            simp [Names.find, isServiceUri, bind, Except.bind]
          rw [(getService_fails fails).2]
          exact inv
      | ok serviceUri =>
          obtain ⟨scheme, found⟩ := matches_serviceUriOf made.made isServiceUri
          have findable := permitted serviceUri isServiceUri
          obtain ⟨what, finds, how⟩ := Names.find_finds isServiceUri found.schemed
            fun absent => (findable absent).authority
          cases how with
          | service entered =>
              rw [(getService_service finds).2]
              exact inv
          | noPlugin absent isAuthority entered isScheme unplugged =>
              rw [(getService_noPlugin finds).2]
              exact inv
          | proxy absent isAuthority nowhere =>
              rcases (getService_proxy finds).2 with same | ⟨proxy, names, gets, next⟩
              · rw [same]
                exact inv
              · rw [next]
                have free := URI.free_of_schemeOf found.text
                obtain ⟨services, created, resolved⟩ :=
                  Names.getProxy_keeps free found.schemed inv.resolved gets
                exact inv.of_names services created resolved
          | @stubOf _ authority binder absent isAuthority entered isScheme plugged =>
              cases getStub with
              | none =>
                  rw [(getService_unmade finds).2]
                  exact inv
              | some stub =>
                  rw [(getService_stub stub finds).2]
                  have vacant : st.directory.entry serviceUri.mString = none :=
                    (inv.entries _).symm.trans absent
                  have isSource : st.directory.registered (baseText serviceUri.mString) =
                      some binder := by
                    rw [baseText_eq found isAuthority,
                      inv.registered_eq (schemeOf_mindroidText authority), entered]
                  apply inv.front vacant rfl
                  · exact Directory.entry_derive vacant binder
                  · apply inv.sound.derive vacant isSource
                    · exact fun other found isFound => Nat.ne_of_lt (inv.known other found isFound)
                    · exact inv.fresh _ (Nat.le_refl _)
                  · intro other derived isDerived
                    by_cases same : other = serviceUri.mString
                    · rw [same, found.text]
                      intro mindroid
                      have nowhere := (findable absent).mindroid (found.schemed.trans mindroid)
                        authority isAuthority
                      rw [entered] at nowhere
                      cases nowhere
                    · have derivedBefore : st.directory.derived other = some derived := by
                        simpa [Directory.derive, same] using isDerived
                      exact inv.foreign other derived derivedBefore
                  · exact Nat.le_succ _
                  · exact Nat.lt_succ_self _
                  · exact fun object new => inv.fresh object (Nat.le_of_succ_le new)
                  · exact inv.resolved

/-- A proxy is no binder of the own node. -/
theorem proxyAnswer_ne {st : Services} {serviceUri : URI} {binder : Nat} :
    st.proxyAnswer serviceUri ≠ .ok (some (.binder binder)) := by
  unfold proxyAnswer
  cases st.names.getProxy serviceUri with
  | error failure => rintro ⟨⟩
  | ok found => cases found.1 <;> simp [Except.map]

theorem proxyAnswer_notNull {st : Services} (inv : st.Inv) {serviceUri : URI}
    {scheme authority : List UInt8} (found : serviceUri.Matches scheme)
    (findable : st.Findable serviceUri) (isAuthority : serviceUri.mAuthority = some authority)
    (nowhere : st.names.serviceAt (Names.mindroidText authority) = none) :
    st.proxyAnswer serviceUri ≠ .error .nullPointer := by
  have free := URI.free_of_schemeOf found.text
  have notNull : NotNull (st.names.getProxy serviceUri) := by
    apply Names.getProxy_notNull free found.schemed inv.resolved findable.authority
    intro other service descriptor interfaceDescriptor configured unresolved isOther
    have same : authority = other := Option.some.inj (isAuthority.symm.trans isOther)
    subst same
    exact findable.announced authority scheme service descriptor interfaceDescriptor
      ⟨configured, isAuthority, nowhere, unresolved⟩ found.schemed
  unfold proxyAnswer
  intro fails
  cases gets : st.names.getProxy serviceUri with
  | error failure =>
      rw [gets] at fails
      cases fails
      exact notNull gets
  | ok found =>
      rw [gets] at fails
      cases fails

section Found

variable {st : Services} {made : MadeURI} {serviceUri : URI} {scheme : List UInt8}
  {what : Found} {getStub : Option Stub} (inv : st.Inv) (found : serviceUri.Matches scheme)
  (finds : st.names.find made.uri = .ok what) (how : st.names.Finds serviceUri what)

include inv found finds how

theorem returns_stub {authority : List UInt8} {service : Nat}
    (plugged : (st.names.mPlugins scheme).isSome)
    (isAuthority : serviceUri.mAuthority = some authority)
    (free : st.directory.registered serviceUri.mString = none)
    (isService : st.directory.registered (Names.mindroidText authority) = some service) :
    st.ReturnsStub made.uri serviceUri.mString service getStub
      (st.getService (some made) getStub) := by
  have base : baseText serviceUri.mString = Names.mindroidText authority :=
    baseText_eq found isAuthority
  have same : ∀ other, serviceUri.mAuthority = some other → other = authority := by
    intro other isOther
    exact Option.some.inj (isOther.symm.trans isAuthority)
  have entered := inv.registered_eq (schemeOf_mindroidText authority)
  rw [isService] at entered
  have table := inv.entries serviceUri.mString
  rw [Directory.entry, free, Option.none_or] at table
  unfold ReturnsStub
  rw [← table]
  cases how with
  | @service stub isEntry =>
      rw [isEntry]
      refine ⟨(getService_service finds).1, ?_⟩
      rw [isEntry] at table
      obtain ⟨source, isSource, made⟩ := inv.sound.made serviceUri.mString stub table.symm
      rw [base, isService] at isSource
      cases isSource
      exact made
  | proxy absent isOther nowhere =>
      rw [same _ isOther, ← entered] at nowhere
      cases nowhere
  | @stubOf _ _ binder absent isOther isEntry isScheme _ =>
      rw [same _ isOther, ← entered] at isEntry
      cases isEntry
      rw [absent]
      cases getStub with
      | none => exact (getService_unmade finds).1
      | some stub =>
          refine ⟨_, (getService_stub stub finds).1, ?_⟩
          rw [(getService_stub stub finds).2]
          simp [Directory.derive]
  | noPlugin absent isOther isEntry isScheme unplugged =>
      obtain rfl : scheme = _ := Option.some.inj (found.schemed.symm.trans isScheme)
      simp [unplugged] at plugged

variable (findable : st.names.serviceAt serviceUri.mString = none → st.Findable serviceUri)

include findable

theorem answer_notNull : st.answer made.uri getStub ≠ .error .nullPointer := by
  cases how with
  | service entered => simp [(getService_service finds).1]
  | proxy absent isAuthority nowhere =>
      rw [(getService_proxy finds).1]
      exact proxyAnswer_notNull inv found (findable absent) isAuthority nowhere
  | stubOf absent isAuthority entered isScheme plugged =>
      cases getStub with
      | none => simp [(getService_unmade finds).1]
      | some stub => simp [(getService_stub stub finds).1]
  | noPlugin absent isAuthority entered isScheme unplugged =>
      simp [(getService_noPlugin finds).1]

theorem answer_mindroid (mindroid : serviceUri.mScheme = some Runtime.MINDROID_SCHEME) :
    st.answer made.uri getStub =
      match st.directory.registered serviceUri.mString with
      | some service => .ok (some (.binder service))
      | none => st.proxyAnswer serviceUri := by
  have isMindroid : URI.schemeOf serviceUri.mString = some Runtime.MINDROID_SCHEME := by
    rw [found.text, ← found.schemed, mindroid]
  rw [inv.registered_eq isMindroid]
  cases how with
  | service entered => rw [(getService_service finds).1, entered]
  | proxy absent isAuthority nowhere => rw [(getService_proxy finds).1, absent]
  | stubOf absent isAuthority entered isScheme plugged =>
      have nowhere := (findable absent).mindroid mindroid _ isAuthority
      simp [entered] at nowhere
  | noPlugin absent isAuthority entered isScheme unplugged =>
      have nowhere := (findable absent).mindroid mindroid _ isAuthority
      simp [entered] at nowhere

end Found

/-- What is returned was not removed, a new stub included. -/
theorem answer_present {st : Services} (inv : st.Inv) {made : MadeURI} {serviceUri : URI}
    {what : Found} {getStub : Option Stub} (finds : st.names.find made.uri = .ok what)
    (how : st.names.Finds serviceUri what) (next : (st.getService (some made) getStub).Inv)
    {binder : Nat} (returned : st.answer made.uri getStub = .ok (some (.binder binder))) :
    ∀ source ∈ (st.getService (some made) getStub).directory.sources binder,
      (st.getService (some made) getStub).directory.withdrawn source = false := by
  cases how with
  | service entered =>
      obtain ⟨returns, same⟩ := getService_service finds
      rw [returns] at returned
      cases returned
      rw [same]
      exact inv.sound.present _ _ ((inv.entries _).symm.trans entered)
  | proxy absent isAuthority nowhere =>
      rw [(getService_proxy finds).1] at returned
      exact absurd returned proxyAnswer_ne
  | stubOf absent isAuthority entered isScheme plugged =>
      cases getStub with
      | none => simp [(getService_unmade finds).1] at returned
      | some stub =>
          obtain ⟨returns, derives⟩ := getService_stub stub finds
          rw [returns] at returned
          cases returned
          apply next.sound.present serviceUri.mString
          rw [derives, Directory.entry_derive ((inv.entries _).symm.trans absent), if_pos rfl]
  | noPlugin absent isAuthority entered isScheme unplugged =>
      simp [(getService_noPlugin finds).1] at returned

theorem Inv.gets {st : Services} (inv : st.Inv) {made : MadeURI} {getStub : Option Stub}
    (permitted : st.Permitted (.getService (some made) getStub)) :
    st.Gets made.uri getStub (st.getService (some made) getStub) := by
  cases isServiceUri : Names.serviceUriOf made.uri with
  | error failure =>
      have fails : st.names.find made.uri = .error failure := by
        simp [Names.find, isServiceUri, bind, Except.bind]
      have notNull := serviceUriOf_notNull made.uri
      rw [isServiceUri] at notNull
      constructor
      · rw [(getService_fails fails).1]
        rintro ⟨⟩
        exact notNull rfl
      · intro serviceUri other
        simp [isServiceUri] at other
      · intro serviceUri _ _ _ other
        simp [isServiceUri] at other
      · intro binder returned
        simp [(getService_fails fails).1] at returned
  | ok serviceUri =>
      obtain ⟨scheme, found⟩ := matches_serviceUriOf made.made isServiceUri
      have findable := permitted serviceUri isServiceUri
      obtain ⟨what, finds, how⟩ := Names.find_finds isServiceUri found.schemed
        fun absent => (findable absent).authority
      constructor
      · exact answer_notNull inv found finds how findable
      · intro other isOther mindroid
        obtain rfl := Except.ok.inj (isServiceUri.symm.trans isOther)
        exact answer_mindroid inv found finds how findable mindroid
      · intro other _ authority service isOther schemed foreign plugged isAuthority free isService
        obtain rfl := Except.ok.inj (isServiceUri.symm.trans isOther)
        obtain rfl := Option.some.inj (found.schemed.symm.trans schemed)
        exact returns_stub inv found finds how plugged isAuthority free isService
      · intro binder
        exact answer_present inv finds how (inv.getService permitted)

/-- Services that stay in the directory stay in the table. -/
theorem Inv.leaves {st : Services} (inv : st.Inv) {service : IBinder Nat}
    (permitted : st.Permitted (.removeService (some service))) :
    st.Leaves service (st.removeService (some service)) := by
  intro text binder isRegistered apart
  rw [inv.entry_removed permitted]
  have isEntry : st.directory.entry text = some binder := by
    simp [Directory.entry, isRegistered]
  cases service with
  | proxy _ => exact isEntry
  | binder removed =>
      show (st.directory.withdraw removed).entry text = some binder
      rw [Directory.entry_withdraw inv.sound.exclusive, isEntry]
      simp [Option.filter, Directory.stays, apart removed rfl]

theorem step_addService {st : Services} {uri : Option MadeURI} {service : Option (IBinder Nat)}
    (refers : st.names.refersToObject service = true) :
    st.step (.addService uri service) = some (st.addService uri service) :=
  if_pos refers

theorem step_removeService {st : Services} {service : Option (IBinder Nat)}
    (refers : st.names.refersToObject service = true) :
    st.step (.removeService service) = some (st.removeService service) :=
  if_pos refers

/-- A step that meets the condition keeps the table and the directory the same. -/
theorem Inv.step {st next : Services} {call : ServiceCall} (inv : st.Inv)
    (permitted : st.Permitted call) (steps : st.step call = some next) : next.Inv := by
  cases call with
  | addService uri service =>
      simp only [Services.step, Option.ite_none_right_eq_some, Option.some_inj] at steps
      obtain ⟨refers, rfl⟩ := steps
      exact inv.addService refers permitted
  | removeService service =>
      simp only [Services.step, Option.ite_none_right_eq_some, Option.some_inj] at steps
      obtain ⟨refers, rfl⟩ := steps
      exact inv.removeService refers permitted
  | getService uri getStub =>
      cases steps
      exact inv.getService permitted

theorem Inv.right {st next : Services} {call : ServiceCall} (inv : st.Inv)
    (permitted : st.Permitted call) (steps : st.step call = some next) : st.Right call next := by
  cases call with
  | addService uri service => exact trivial
  | removeService service =>
      simp only [Services.step, Option.ite_none_right_eq_some, Option.some_inj] at steps
      obtain ⟨_, rfl⟩ := steps
      cases service with
      | none => exact trivial
      | some service => exact inv.leaves permitted
  | getService uri getStub =>
      cases steps
      cases uri with
      | none => exact trivial
      | some made => exact inv.gets permitted

end Services

/-- The first binder of the node 1, with an interface. -/
def firstBinder : Binder :=
  ((⟨4294967297, [], none⟩ : Binder).attachInterface
    (String.valueOf "mindroid://interfaces/x")).toOption.getD ⟨0, [], none⟩

/-- A node with one binder and a plugin for every scheme, with the ids that services get. -/
def firstNode (ids : List UInt8 → Option Int32) : Names where
  mNodeId := 1
  mBinderUris := fun _ => none
  mPlugins := fun _ => some ⟨fun _ => none, fun _ _ _ => .null⟩
  mProxyIdGenerator := 1
  alive := fun _ => true
  transact := fun _ _ _ => .null
  mBinderIds := fun _ => none
  mServices := []
  mBinderIdGenerator := 2
  mIds := fun _ => false
  mConfiguration := some ⟨some ids, []⟩
  binders := fun _ => firstBinder
  created := 1
  mNameResolutionCache := fun _ => none
  configured := fun _ => none

/-- A copy without an interface. -/
def plainCopy : Stub :=
  ⟨fun id => ⟨id, [], none⟩, fun _ => rfl⟩

def mindroidA : MadeURI :=
  MadeURI.parse (String.valueOf "mindroid://a") rfl

def mindroidB : MadeURI :=
  MadeURI.parse (String.valueOf "mindroid://b") rfl

def tcpA : MadeURI :=
  MadeURI.parse (String.valueOf "tcp://a") rfl

/-- Live binders that have the same id are copies of each other. -/
def Services.DistinctIds (st : Services) : Prop :=
  ∀ binder < st.names.created, ∀ other < st.names.created,
    (st.names.binders binder).mId = (st.names.binders other).mId →
      (st.directory.sources binder).getLast? = (st.directory.sources other).getLast?

instance (st : Services) : Decidable st.DistinctIds :=
  inferInstanceAs (Decidable (∀ binder < _, ∀ other < _, _ → _))

/-- The second service gets the id 100. -/
def secondId (name : List UInt8) : Option Int32 :=
  if name = String.valueOf "b" then some 100 else none

end Mindroid
