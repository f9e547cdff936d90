import Mindroid.Lang.Integer

/-!
# URIs

`parseURI` finds the parts of a URI by the indices of the characters that separate them.
-/

set_option autoImplicit false

namespace Mindroid

/-- The fields of a `URI`.  A part that is null is none. -/
structure URI where
  mString : List UInt8
  mScheme : Option (List UInt8) := none
  mSchemeSpecificPart : Option (List UInt8) := none
  mAuthority : Option (List UInt8) := none
  mUserInfo : Option (List UInt8) := none
  mHost : Option (List UInt8) := none
  mPort : Int32 := -1
  mPath : Option (List UInt8) := none
  mQuery : Option (List UInt8) := none
  mFragment : Option (List UInt8) := none
  mOpaque : Bool := false
  deriving DecidableEq

namespace URI

def slash : UInt8 := 47

def colon : UInt8 := 58

def questionMark : UInt8 := 63

def numberSign : UInt8 := 35

def at_sign : UInt8 := 64

def bracket : UInt8 := 93

/-- `indexOf` of a character, which ignores where to start. -/
def indexOf (string : List UInt8) (c : UInt8) (_start endIndex : Nat) : Nat :=
  match String.indexOf string c with
  | some index => if index < endIndex then index else endIndex
  | none => endIndex

/-- `strchr` finds the NUL behind the characters too. -/
def isOneOf (chars : List UInt8) (c : UInt8) : Bool :=
  chars.contains c || c == 0

/-- `indexOf` of one of some characters. -/
def indexOfAny (string chars : List UInt8) (start endIndex : Nat) : Except Failure Nat :=
  if start ≥ string.length ∨ start > endIndex ∨ endIndex > string.length then
    .error .indexOutOfBoundsException
  else
    match ((string.take endIndex).drop start).findIdx? (isOneOf chars) with
    | some distance => .ok (start + distance)
    | none => .ok endIndex

def invalid (message : String) : Failure :=
  .uriSyntaxException (String.valueOf message)

/-- What `parseAuthority` does with the port behind the last colon: `none` if it gives up. -/
def parsePort (port : List UInt8) (serverBasedNamingAuthority : Bool) :
    Except Failure (Option Int32) :=
  match Integer.valueOf port 10 with
  | .ok value =>
      if value < 0 then
        if serverBasedNamingAuthority then .error (invalid "Invalid port number") else .ok none
      else
        .ok (some value)
  | .error (.numberFormatException _) =>
      if serverBasedNamingAuthority then .error (invalid "Invalid port number") else .ok none
  | .error failure => .error failure

/-- The part of `parseAuthority` after the host has been found. -/
def setHost (uri : URI) (userInfo : Option (List UInt8)) (host : List UInt8) (port : Int32)
    (serverBasedNamingAuthority : Bool) : Except Failure URI :=
  if host = [] then
    if serverBasedNamingAuthority then .error (invalid "Invalid host") else .ok uri
  else
    .ok { uri with mUserInfo := userInfo, mHost := some host, mPort := port }

/-- The part of `parseAuthority` after the user info. -/
def parseHost (uri : URI) (userInfo : Option (List UInt8)) (authority : List UInt8)
    (serverBasedNamingAuthority : Bool) : Except Failure URI :=
  match String.lastIndexOf authority colon with
  | none => uri.setHost userInfo authority (-1) serverBasedNamingAuthority
  | some portIndex =>
      -- no bracket is at the index -1
      if ((String.indexOf authority bracket).elim true fun endIndex => endIndex < portIndex) then do
        let host ← String.substring authority 0 portIndex
        if portIndex + 1 < authority.length then do
          let text ← String.substringFrom authority (portIndex + 1)
          match ← parsePort text serverBasedNamingAuthority with
          | none => pure uri
          | some port => uri.setHost userInfo host port serverBasedNamingAuthority
        else
          uri.setHost userInfo host (-1) serverBasedNamingAuthority
      else
        uri.setHost userInfo authority (-1) serverBasedNamingAuthority

def parseAuthority (uri : URI) (serverBasedNamingAuthority : Bool) : Except Failure URI :=
  match uri.mAuthority with
  | none => .ok uri
  | some authority =>
      match String.indexOf authority at_sign with
      | none => uri.parseHost none authority serverBasedNamingAuthority
      | some userIndex => do
          let userInfo ← String.substring authority 0 userIndex
          let host ← String.substringFrom authority (userIndex + 1)
          uri.parseHost (some userInfo) host serverBasedNamingAuthority

/-- The part of `parseURI` after the authority. -/
def parsePath (uri : URI) (pathStart fragmentStart : Nat) (serverBasedNamingAuthority : Bool) :
    Except Failure URI := do
  let string := uri.mString
  let queryStart := indexOf string questionMark pathStart fragmentStart
  let path ← String.substring string pathStart queryStart
  let uri := { uri with mPath := some path }
  if queryStart < fragmentStart then do
    let query ← String.substring string (queryStart + 1) fragmentStart
    parseAuthority { uri with mQuery := some query } serverBasedNamingAuthority
  else
    uri.parseAuthority serverBasedNamingAuthority

/-- The part of `parseURI` for a scheme-specific part that is hierarchical. -/
def parseHierarchical (uri : URI) (hierPartStart fragmentStart : Nat)
    (serverBasedNamingAuthority : Bool) : Except Failure URI := do
  let string := uri.mString
  let schemeSpecificPart ← String.substring string hierPartStart fragmentStart
  let uri := { uri with mOpaque := false, mSchemeSpecificPart := some schemeSpecificPart }
  if String.regionMatches string hierPartStart [slash, slash] 0 2 then
    let authorityStart := hierPartStart + 2
    if authorityStart = string.length then
      .error (invalid "Authority expected")
    else do
      let pathStart ← indexOfAny string [slash, questionMark] authorityStart fragmentStart
      if authorityStart < pathStart then do
        let authority ← String.substring string authorityStart pathStart
        parsePath { uri with mAuthority := some authority } pathStart fragmentStart
          serverBasedNamingAuthority
      else
        uri.parsePath pathStart fragmentStart serverBasedNamingAuthority
  else
    uri.parsePath hierPartStart fragmentStart serverBasedNamingAuthority

/-- The part of `parseURI` after the fragment. -/
def parseScheme (uri : URI) (fragmentStart : Nat) (serverBasedNamingAuthority : Bool) :
    Except Failure URI := do
  let string := uri.mString
  let colonIndex := indexOf string colon 0 fragmentStart
  if colonIndex < (← indexOfAny string [slash, questionMark, numberSign] 0 fragmentStart) then do
    let scheme ← String.substring string 0 colonIndex
    let uri := { uri with mScheme := some scheme }
    let hierPartStart := colonIndex + 1
    if hierPartStart = fragmentStart then
      .error (invalid "Scheme-specific part expected")
    else if String.regionMatches string hierPartStart [slash] 0 1 then
      uri.parseHierarchical hierPartStart fragmentStart serverBasedNamingAuthority
    else do
      let schemeSpecificPart ← String.substring string hierPartStart fragmentStart
      pure { uri with mOpaque := true, mSchemeSpecificPart := some schemeSpecificPart }
  else
    uri.parseHierarchical 0 fragmentStart serverBasedNamingAuthority

def parseURI (string : List UInt8) (serverBasedNamingAuthority : Bool) : Except Failure URI := do
  let fragmentStart := indexOf string numberSign 0 string.length
  if fragmentStart < string.length then do
    let fragment ← String.substringFrom string (fragmentStart + 1)
    parseScheme { mString := string, mFragment := some fragment } fragmentStart
      serverBasedNamingAuthority
  else
    parseScheme { mString := string } fragmentStart serverBasedNamingAuthority

/-- `new URI(spec)`. -/
def new (spec : List UInt8) : Except Failure URI :=
  parseURI spec false

/-- `URI::create`, whose exception has no text of its own but its cause. -/
def create (string : List UInt8) : Except Failure URI :=
  match new string with
  | .error (.uriSyntaxException message) => .error (.illegalArgumentException message)
  | result => result

end URI

end Mindroid
