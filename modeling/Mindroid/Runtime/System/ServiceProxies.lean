import Mindroid.Runtime.System.Server
import Mindroid.Runtime.System.Services

/-!
# Proxies of services

The URI of a service has a scheme, and the one of a proxy an authority too, so that no null pointer
is dereferenced where an interface that is announced has a path.
-/

set_option autoImplicit false

namespace Mindroid

open Foundation

/-! ## URIs that were made -/

theorem mindroid_free : ∀ c ∈ Runtime.MINDROID_SCHEME, URI.isOneOf URI.schemeEnds c = false := by
  decide +kernel

/-- A URI has the scheme and the authority of its text. -/
structure URI.Matches (uri : URI) (scheme : List UInt8) : Prop where
  schemed : uri.mScheme = some scheme
  text : URI.schemeOf uri.mString = some scheme
  authority : uri.mAuthority = URI.authorityOf uri.mString

theorem matches_of_parseURI {string scheme : List UInt8} {server : Bool} {uri : URI}
    (parsed : URI.parseURI string server = .ok uri) (schemed : uri.mScheme = some scheme) :
    uri.Matches scheme := by
  obtain ⟨path, parts⟩ := URI.parsed_of_parseURI parsed
  constructor
  · exact schemed
  · rw [parts.string, ← parts.scheme, schemed]
  · rw [parts.string, parts.authority]

theorem URI.Made.matches {uri : URI} {scheme : List UInt8} (made : uri.Made)
    (schemed : uri.mScheme = some scheme) : uri.Matches scheme := by
  cases made with
  | new made => exact matches_of_parseURI made schemed
  | ofParts made =>
      rw [URI.ofParts] at made
      split at made
      · cases made
      · exact matches_of_parseURI made schemed
  | ofServerParts made =>
      rw [URI.ofServerParts] at made
      split at made
      · cases made
        cases schemed
      · split at made
        · cases made
        · exact matches_of_parseURI made schemed

/-- A URI of services has a scheme. -/
theorem matches_serviceUriOf {uri serviceUri : URI} (made : uri.Made)
    (isServiceUri : Names.serviceUriOf uri = .ok serviceUri) :
    ∃ scheme, serviceUri.Matches scheme := by
  cases schemed : uri.mScheme with
  | some scheme =>
      simp only [Names.serviceUriOf, schemed] at isServiceUri
      cases isServiceUri
      exact ⟨scheme, made.matches schemed⟩
  | none =>
      simp only [Names.serviceUriOf, schemed] at isServiceUri
      have remade := URI.Made.ofServerParts isServiceUri
      rw [URI.ofServerParts] at isServiceUri
      split at isServiceUri
      case isTrue allNull => simp at allNull
      case isFalse =>
        split at isServiceUri
        case isTrue => cases isServiceUri
        case isFalse =>
          obtain ⟨path, parts⟩ := URI.parsed_of_parseURI isServiceUri
          refine ⟨Runtime.MINDROID_SCHEME, remade.matches ?_⟩
          rw [parts.scheme, Option.elim_some,
            String.cStr_of_nonzero fun c member => by
              exact (URI.ne_of_isOneOf (mindroid_free c member) List.mem_cons_self).2,
            List.append_assoc]
          exact URI.schemeOf_append mindroid_free _

/-! ## Proxies -/

/-- No null pointer is dereferenced. -/
def NotNull {α : Type} (result : Except Failure α) : Prop :=
  result ≠ .error .nullPointer

theorem notNull_ok {α : Type} (value : α) : NotNull (.ok value) := by
  rintro ⟨⟩

theorem NotNull.bind {α β : Type} {result : Except Failure α} {next : α → Except Failure β}
    (notNull : NotNull result) (goesOn : ∀ value, result = .ok value → NotNull (next value)) :
    NotNull (result >>= next) := by
  cases result with
  | ok value => exact goesOn value rfl
  | error failure =>
      rintro ⟨⟩
      exact notNull rfl

theorem notNull_of_syntax {α : Type} {result : Except Failure α}
    (only : URI.OnlySyntaxException result) : NotNull result := by
  rintro rfl
  obtain ⟨message, same⟩ := only _ rfl
  cases same

/-- It may not be possible to make a URI of services. -/
theorem serviceUriOf_notNull (uri : URI) : NotNull (Names.serviceUriOf uri) := by
  unfold Names.serviceUriOf
  split
  · exact notNull_ok _
  · apply notNull_of_syntax
    rw [URI.onlySyntaxException_ofServerParts_iff]
    intro nothing
    cases nothing.scheme

/-- A proxy can be made of a URI with a scheme and an authority, or an exception is thrown. -/
def Resolved (uri : URI) : Prop :=
  ∃ string scheme authority path, (∀ c ∈ scheme, URI.isOneOf URI.schemeEnds c = false) ∧
    URI.Parsed uri string (some scheme) (some authority) path

namespace ConfiguredService

variable {service : ConfiguredService} {scheme interfaceDescriptor : List UInt8}

theorem proxyUri_notNull
    (paths : ∀ uri, URI.new interfaceDescriptor = .ok uri → uri.mPath.isSome) :
    NotNull (service.proxyUri scheme interfaceDescriptor) := by
  have parses : NotNull (URI.new interfaceDescriptor) := by
    by_cases empty : interfaceDescriptor = []
    · rw [empty, URI.new_nil]
      rintro ⟨⟩
    · exact notNull_of_syntax ((URI.onlySyntaxException_parseURI_iff _ false).mpr empty)
  unfold proxyUri
  apply parses.bind
  intro uri parsed
  obtain ⟨path, hasPath⟩ := Option.isSome_iff_exists.mp (paths uri parsed)
  simp only [hasPath]
  apply NotNull.bind
  · unfold String.substringFrom
    split <;> rintro ⟨⟩
  · intro interface _
    apply notNull_of_syntax
    rw [URI.onlySyntaxException_ofParts_iff]
    intro nothing
    cases nothing.scheme

/-- The authority of a service begins with a digit. -/
theorem authority_starts : ∃ c rest, service.authority = c :: rest ∧
    URI.isOneOf [URI.slash, URI.questionMark, URI.numberSign] c = false := by
  obtain ⟨c, rest, digits⟩ := List.exists_cons_of_ne_nil
    (Integer.decimal_ne_nil service.node.toNat)
  refine ⟨c, _, by rw [authority, digits]; rfl, ?_⟩
  have member : c ∈ Integer.decimal service.node.toNat := by
    rw [digits]
    exact List.mem_cons_self
  have free := Binder.decimal_free member
  simp [URI.isOneOf] at free ⊢
  exact ⟨⟨free.1.2.1, free.1.2.2⟩, free.2⟩

/-- The scheme and an authority are found again in a URI that was made of them. -/
theorem resolved_ofParts {uri : URI} {path query : Option (List UInt8)}
    (free : ∀ c ∈ scheme, URI.isOneOf URI.schemeEnds c = false)
    (made : URI.ofParts (some scheme) (some service.authority) path query none = .ok uri) :
    Resolved uri := by
  rw [URI.ofParts] at made
  split at made
  · cases made
  · obtain ⟨found, parts⟩ := URI.parsed_of_parseURI made
    obtain ⟨c, rest, starts, unended⟩ := @authority_starts service
    have nonzero : c ≠ 0 := (URI.ne_of_isOneOf unended List.mem_cons_self).2
    have schemeText : String.cStr scheme = scheme := String.cStr_of_nonzero fun other member =>
      (URI.ne_of_isOneOf (free other member) List.mem_cons_self).2
    have authorityText : String.cStr service.authority = c :: String.cStr rest := by
      simp [starts, String.cStr, nonzero]
    have text : ∃ behind, URI.text (some scheme) (some service.authority) path query none =
        scheme ++ URI.colon :: URI.slash :: URI.slash :: c :: behind := by
      simp [URI.text, URI.partText, schemeText, authorityText]
    obtain ⟨behind, text⟩ := text
    rw [text] at parts
    obtain ⟨authority, found⟩ := Option.isSome_iff_exists.mp
      (URI.authorityOf_append free unended behind)
    rw [URI.schemeOf_append free, found] at parts
    exact ⟨_, scheme, authority, _, free, parts⟩

theorem resolved_proxyUri {uri : URI} (free : ∀ c ∈ scheme, URI.isOneOf URI.schemeEnds c = false)
    (resolves : service.proxyUri scheme interfaceDescriptor = .ok uri) : Resolved uri := by
  unfold proxyUri at resolves
  cases parsed : URI.new interfaceDescriptor with
  | error failure =>
      rw [parsed] at resolves
      cases resolves
  | ok descriptor =>
      rw [parsed] at resolves
      simp only [bind, Except.bind] at resolves
      split at resolves
      · cases resolves
      · split at resolves
        · cases resolves
        · exact resolved_ofParts free resolves

end ConfiguredService

namespace Names

variable {names : Names}

theorem create_notNull {uri : URI} (resolved : Resolved uri) : NotNull (names.create uri) := by
  obtain ⟨string, scheme, authority, path, free, parsed⟩ := resolved
  have settles := Plugin.Server.createProxy_settles names.toRuntime parsed free
  apply NotNull.bind
  · intro fails
    cases settles _ fails
  · exact fun found _ => notNull_ok _

/-- All names that are resolved are those of URIs of which proxies can be made. -/
def AllResolved (names : Names) : Prop :=
  ∀ key uri, names.mNameResolutionCache key = some uri → Resolved uri

theorem create_keeps {uri : URI} {proxy : Proxy} {next : Names}
    (creates : names.create uri = .ok (proxy, next)) :
    next.mServices = names.mServices ∧ next.created = names.created ∧
      next.mNameResolutionCache = names.mNameResolutionCache := by
  unfold create at creates
  cases created : names.toRuntime.createProxy uri with
  | error failure =>
      rw [created] at creates
      cases creates
  | ok found =>
      rw [created] at creates
      cases creates
      exact ⟨rfl, rfl, rfl⟩

section Scheme

variable {scheme : List UInt8} (free : ∀ c ∈ scheme, URI.isOneOf URI.schemeEnds c = false)

include free

theorem resolve_notNull {key interfaceDescriptor : List UInt8} {service : ConfiguredService}
    (paths : ∀ uri, URI.new interfaceDescriptor = .ok uri → uri.mPath.isSome) :
    NotNull (names.resolve key scheme interfaceDescriptor service) := by
  apply (ConfiguredService.proxyUri_notNull paths).bind
  intro proxyUri resolves
  apply (create_notNull (ConfiguredService.resolved_proxyUri free resolves)).bind
  exact fun found _ => notNull_ok _

theorem resolve_keeps {key interfaceDescriptor : List UInt8} {service : ConfiguredService}
    {proxy : Option Proxy} {next : Names} (all : names.AllResolved)
    (resolves : names.resolve key scheme interfaceDescriptor service = .ok (proxy, next)) :
    next.mServices = names.mServices ∧ next.created = names.created ∧ next.AllResolved := by
  unfold resolve at resolves
  cases found : service.proxyUri scheme interfaceDescriptor with
  | error failure =>
      rw [found] at resolves
      cases resolves
  | ok proxyUri =>
      rw [found] at resolves
      simp only [bind, Except.bind] at resolves
      cases created : names.create proxyUri with
      | error failure =>
          rw [created] at resolves
          cases resolves
      | ok pair =>
          rw [created] at resolves
          cases resolves
          obtain ⟨services, count, cache⟩ := create_keeps created
          refine ⟨services, count, ?_⟩
          intro other uri isCached
          by_cases same : other = key
          · simp [same] at isCached
            rw [← isCached]
            exact ConfiguredService.resolved_proxyUri free found
          · simp [same, cache] at isCached
            exact all other uri isCached

variable {uri : URI} (schemed : uri.mScheme = some scheme) (all : names.AllResolved)

include schemed all

theorem getProxy_keeps {proxy : Option Proxy} {next : Names}
    (gets : names.getProxy uri = .ok (proxy, next)) :
    next.mServices = names.mServices ∧ next.created = names.created ∧ next.AllResolved := by
  have same : names.mServices = names.mServices ∧ names.created = names.created ∧
      names.AllResolved := ⟨rfl, rfl, all⟩
  unfold getProxy at gets
  split at gets
  case h_1 proxyUri isCached =>
    cases created : names.create proxyUri with
    | error failure =>
        rw [created] at gets
        cases gets
    | ok pair =>
        rw [created] at gets
        cases gets
        obtain ⟨services, count, cache⟩ := create_keeps created
        refine ⟨services, count, ?_⟩
        unfold AllResolved
        rw [cache]
        exact all
  case h_2 =>
    split at gets
    · cases gets
      exact same
    · split at gets
      case h_2 => cases gets
      case h_1 authority found _ isScheme =>
        obtain rfl : scheme = found := Option.some.inj (schemed.symm.trans isScheme)
        split at gets
        · cases gets
          exact same
        · split at gets
          · cases gets
            exact same
          · split at gets
            case h_1 resolves =>
              cases gets
              exact resolve_keeps free all resolves
            case h_2 =>
              split at gets
              · cases gets
                exact same
              · cases gets

theorem getProxy_notNull (authorized : uri.mAuthority.isSome)
    (paths : ∀ authority service descriptor interfaceDescriptor, names.mConfiguration.isSome →
      names.mNameResolutionCache uri.mString = none → uri.mAuthority = some authority →
        names.configured authority = some service →
          service.announcements scheme = some descriptor →
            URI.new descriptor = .ok interfaceDescriptor → interfaceDescriptor.mPath.isSome) :
    NotNull (names.getProxy uri) := by
  unfold getProxy
  split
  case h_1 proxyUri isCached =>
    exact (create_notNull (all _ _ isCached)).bind fun found _ => notNull_ok _
  case h_2 unresolved =>
    split
    · exact notNull_ok _
    · rename_i configuredToo
      obtain ⟨authority, isAuthority⟩ := Option.isSome_iff_exists.mp authorized
      simp only [isAuthority, schemed]
      split
      · exact notNull_ok _
      · rename_i service isService
        split
        · exact notNull_ok _
        · rename_i descriptor announced
          have notNull : NotNull (names.resolve uri.mString scheme descriptor service) :=
            resolve_notNull free fun interfaceDescriptor parsed =>
              paths authority service descriptor interfaceDescriptor
                (Option.isSome_iff_ne_none.mpr (by simpa using configuredToo)) unresolved
                isAuthority isService announced parsed
          split
          · exact notNull_ok _
          · rename_i failure fails
            split
            · exact notNull_ok _
            · rintro ⟨⟩
              exact notNull fails

end Scheme

end Names

end Mindroid
