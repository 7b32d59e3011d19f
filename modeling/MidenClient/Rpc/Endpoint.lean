/-
This file models network endpoints and how they are read from strings
(`rust-client/src/rpc/endpoint.rs`).

A string is the array of its bytes in UTF-8, and every index is one of a byte. Slices panic
inside a character, so that reading an endpoint is a computation that may panic. The
identifiers of networks are those of the protocol and are a parameter.

A string has one of four forms, by whether it contains a scheme separator and a colon behind
the first one. What is read in each form does not depend on where the indices were found, and
the text of an endpoint has one of two of them again.
-/

import MidenClient.Library.ByteText
import MidenClient.Library.DecimalText

namespace MidenClient

open ByteText DecimalText Panicking

/-! ### Endpoints -/

/-- The `Endpoint` struct represents a network endpoint, consisting of a protocol, a host, and a
port. -/
structure Endpoint where
  /-- The protocol used to connect to the endpoint. -/
  protocol : Text
  /-- The hostname or IP address of the endpoint. -/
  host : Text
  /-- The port number of the endpoint. -/
  port : Option ℕ
  deriving DecidableEq, Repr

/-- The identifiers of networks. -/
class NetworkIds (ν : Type) where
  testnet : ν
  devnet : ν
  new : Text → Option ν

namespace Endpoint

def midenNodePort : ℕ := 57291

/-- The endpoint associated with the testnet network. -/
def testnet : Endpoint :=
  ⟨bytes "https", bytes "rpc.testnet.miden.io", none⟩

/-- The endpoint associated with the devnet network. -/
def devnet : Endpoint :=
  ⟨bytes "https", bytes "rpc.devnet.miden.io", none⟩

/-- The endpoint for a default node running in `localhost`. -/
def localhost : Endpoint :=
  ⟨bytes "http", bytes "localhost", some midenNodePort⟩

def toNetworkId {ν ε : Type} [NetworkIds ν] (endpoint : Endpoint) : Except (Failure ε) ν :=
  if endpoint = testnet then .ok NetworkIds.testnet
  else if endpoint = devnet then .ok NetworkIds.devnet
  else if endpoint = localhost then
    -- Network ID intended to be used when running a local instance of the node.
    expect "mlcl should be a valid network ID" (NetworkIds.new (bytes "mlcl"))
  else
    -- Default network ID for custom networks when no other match has been found.
    expect "mcst should be a valid network ID" (NetworkIds.new (bytes "mcst"))

def colon : ℕ := 58
def slash : ℕ := 47

/-- `://` -/
def protocolSeparator : Text := [colon, slash, slash]

/-- The text of an endpoint. -/
def display (endpoint : Endpoint) : Text :=
  match endpoint.port with
  | some port => endpoint.protocol ++ protocolSeparator ++ endpoint.host ++ [colon] ++ decimal port
  | none => endpoint.protocol ++ protocolSeparator ++ endpoint.host

/-- The text of an error of parsing an integer. -/
def parseIntErrorText : ParseIntError → String
  | .empty => "cannot parse integer from empty string"
  | .invalidDigit => "invalid digit found in string"
  | .posOverflow => "number too large to fit in target type"

/-- `str::parse::<u16>` -/
def parseU16 (text : Text) : Except ParseIntError ℕ :=
  readBelow (2 ^ 16) text

/-- The number of a port; slashes at its end are ignored. -/
def portNumber (digits : Text) : Except (Failure String) ℕ :=
  fallible ((parseU16 (trimEndMatches slash digits)).mapError parseIntErrorText)

/-- The number behind the colon of a port. -/
def parsePort (port : Text) : Except (Failure String) ℕ := do
  let digits ← sliceFrom port 1
  portNumber digits

def tryFrom (endpoint : Text) : Except (Failure String) Endpoint :=
  let protocolSeparatorIndex := find protocolSeparator endpoint
  let portSeparatorIndex := rfind colon endpoint
  -- The port separator index might match with the protocol separator, if so that means there was
  -- no port defined.
  let portSeparatorIndex :=
    if portSeparatorIndex = protocolSeparatorIndex then none else portSeparatorIndex
  match protocolSeparatorIndex, portSeparatorIndex with
  | some protocolIdx, some portIdx => do
    let (protocolAndHostname, port) ← splitAt endpoint portIdx
    let port ← parsePort port
    let (protocol, hostname) ← splitAt protocolAndHostname protocolIdx
    let hostname ← sliceFrom hostname 3
    return ⟨protocol, hostname, some port⟩
  | some protocolIdx, none => do
    let (protocol, hostname) ← splitAt endpoint protocolIdx
    let hostname ← sliceFrom hostname 3
    return ⟨protocol, hostname, none⟩
  | none, some portIdx => do
    let (hostname, port) ← splitAt endpoint portIdx
    let port ← parsePort port
    return ⟨bytes "https", hostname, some port⟩
  | none, none => .ok ⟨bytes "https", endpoint, none⟩

/-- The last colon is not that of the first scheme separator, so a port is expected behind it. -/
def HasPortSeparator (text : Text) : Prop :=
  rfind colon text ≠ find protocolSeparator text

instance (text : Text) : Decidable (HasPortSeparator text) :=
  inferInstanceAs (Decidable (_ ≠ _))

/-! ### Ports -/

theorem parsePort_colon {digits : Text} (starts : StartsChar digits) :
    parsePort (colon :: digits) = portNumber digits := by
  have sliced : (sliceFrom ([colon] ++ digits) [colon].length : Except (Failure String) Text) =
      .ok digits := sliceFrom_append starts
  show (sliceFrom ([colon] ++ digits) [colon].length >>= portNumber) = _
  rw [sliced]
  rfl

theorem returns_portNumber (digits : Text) : Returns (portNumber digits) :=
  returns_fallible _

theorem portNumber_slash (digits : Text) : portNumber (digits ++ [slash]) = portNumber digits := by
  unfold portNumber
  rw [trimEndMatches_append]

theorem portNumber_lt {digits : Text} {port : ℕ} (read : portNumber digits = .ok port) :
    port < 2 ^ 16 := by
  have parsed : parseU16 (trimEndMatches slash digits) = .ok port :=
    mapError_eq_ok.mp (fallible_eq_ok.mp read)
  obtain ⟨_, _, _, _, _, _, small⟩ := readBelow_eq_ok (by decide) parsed
  exact small

theorem not_mem_decimal {unit : ℕ} (other : isDigit unit = false) (number : ℕ) :
    unit ∉ decimal number := by
  intro member
  rw [allDigits_decimal number unit member] at other
  cases other

/-- A port is read back from its digits. -/
theorem portNumber_decimal {port : ℕ} (small : port < 2 ^ 16) :
    portNumber (decimal port) = .ok port := by
  unfold portNumber parseU16
  rw [trimEndMatches_of_not_mem (not_mem_decimal rfl port), readBelow_decimal small]
  rfl

theorem startsChar_decimal (number : ℕ) : StartsChar (decimal number) := by
  intro unit first
  have digit := allDigits_decimal number unit (List.mem_of_mem_head? first)
  simp only [isDigit, Bool.and_eq_true, decide_eq_true_eq] at digit
  exact isFirstByte_of_ascii (by omega)

/-! ### The forms of a string -/

/-- The protocol contains no scheme separator, not even one that its end begins. -/
def NoEarlierSeparator (protocol : Text) : Prop :=
  find protocolSeparator (protocol ++ protocolSeparator) = some protocol.length

/-- A string with or without a scheme separator, and with or without a colon behind it or, where
there is none, anywhere. -/
inductive Form : Text → Prop where
  | host {host : Text} (noColon : colon ∉ host) : Form host
  | hostAndPort {host digits : Text}
      (noSeparator : find protocolSeparator (host ++ colon :: digits) = none)
      (noColon : colon ∉ digits) (starts : StartsChar digits) : Form (host ++ colon :: digits)
  | url {protocol host : Text} (first : NoEarlierSeparator protocol) (noColon : colon ∉ host)
      (starts : StartsChar host) : Form (protocol ++ (protocolSeparator ++ host))
  | urlAndPort {protocol host digits : Text} (first : NoEarlierSeparator protocol)
      (noColon : colon ∉ digits) (hostStarts : StartsChar host) (starts : StartsChar digits) :
      Form (protocol ++ (protocolSeparator ++ (host ++ colon :: digits)))

theorem find_of_noEarlierSeparator {protocol : Text} (first : NoEarlierSeparator protocol)
    (rest : Text) :
    find protocolSeparator (protocol ++ (protocolSeparator ++ rest)) = some protocol.length :=
  (find_append_iff (List.cons_ne_nil _ _)).mpr first

theorem noEarlierSeparator_of_find {protocol rest : Text}
    (found : find protocolSeparator (protocol ++ (protocolSeparator ++ rest)) =
      some protocol.length) : NoEarlierSeparator protocol :=
  (find_append_iff (List.cons_ne_nil _ _)).mp found

/-- The last colon is that of the separator when there is none in the host. -/
theorem rfind_separator {protocol host : Text} (noColon : colon ∉ host) :
    rfind colon (protocol ++ (protocolSeparator ++ host)) = some protocol.length := by
  have slashes : colon ∉ slash :: slash :: host := by
    rintro member
    rcases List.mem_cons.mp member with same | member
    · cases same
    · rcases List.mem_cons.mp member with same | member
      · cases same
      · exact noColon member
  exact rfind_append slashes

theorem rfind_port {protocol host digits : Text} (noColon : colon ∉ digits) :
    rfind colon (protocol ++ (protocolSeparator ++ (host ++ colon :: digits))) =
      some (protocol ++ (protocolSeparator ++ host)).length := by
  have assoc : protocol ++ (protocolSeparator ++ (host ++ colon :: digits)) =
      (protocol ++ (protocolSeparator ++ host)) ++ colon :: digits := by
    simp only [List.append_assoc]
  rw [assoc, rfind_append noColon]

/-- Every string has one of the forms. -/
theorem form_of_string (string : String) : Form (bytes string) := by
  cases found : find protocolSeparator (bytes string) with
  | none =>
    cases last : rfind colon (bytes string) with
    | none => exact .host (rfind_eq_none_iff.mp last)
    | some portIdx =>
      obtain ⟨host, digits, split, _, noColon⟩ := rfind_eq_some last
      rw [split] at found ⊢
      exact .hostAndPort found noColon (startsChar_after_ascii split (by decide))
  | some protocolIdx =>
    obtain ⟨protocol, rest, split, rfl⟩ := find_eq_some found
    have first : NoEarlierSeparator protocol := noEarlierSeparator_of_find (split ▸ found)
    have restSplit : bytes string = (protocol ++ [colon, slash]) ++ slash :: rest := by
      rw [split, List.append_assoc]
      rfl
    have restStarts : StartsChar rest := startsChar_after_ascii restSplit (by decide)
    by_cases port : colon ∈ rest
    · cases last : rfind colon rest with
      | none => exact absurd port (rfind_eq_none_iff.mp last)
      | some portIdx =>
        obtain ⟨host, digits, rfl, _, noColon⟩ := rfind_eq_some last
        have digitsSplit : bytes string =
            (protocol ++ (protocolSeparator ++ host)) ++ colon :: digits := by
          rw [split]
          simp only [List.append_assoc]
        rw [split]
        exact .urlAndPort first noColon restStarts.of_append
          (startsChar_after_ascii digitsSplit (by decide))
    · rw [split]
      exact .url first port restStarts

/-! ### What is read in each form -/

theorem tryFrom_host {host : Text} (noColon : colon ∉ host) :
    tryFrom host = .ok ⟨bytes "https", host, none⟩ := by
  have separator : colon ∈ protocolSeparator := List.mem_cons_self
  unfold tryFrom
  rw [find_eq_none_of_not_mem separator noColon, rfind_eq_none_iff.mpr noColon]
  rfl

theorem tryFrom_hostAndPort {host digits : Text}
    (noSeparator : find protocolSeparator (host ++ colon :: digits) = none)
    (noColon : colon ∉ digits) (starts : StartsChar digits) :
    tryFrom (host ++ colon :: digits) =
      (portNumber digits).map fun port => ⟨bytes "https", host, some port⟩ := by
  have colonStarts : StartsChar (colon :: digits) := startsChar_cons.mpr rfl
  unfold tryFrom
  rw [noSeparator, rfind_append noColon]
  dsimp only
  rw [if_neg (Option.some_ne_none _)]
  dsimp only
  rw [splitAt_append colonStarts]
  show (parsePort (colon :: digits) >>= fun port => _) = _
  rw [parsePort_colon starts]
  cases portNumber digits <;> rfl

theorem splitAt_separator {protocol host : Text} :
    (splitAt (protocol ++ (protocolSeparator ++ host)) protocol.length :
      Except (Failure String) (Text × Text)) = .ok (protocol, protocolSeparator ++ host) :=
  splitAt_append (startsChar_cons.mpr rfl)

theorem sliceFrom_separator {host : Text} (starts : StartsChar host) :
    (sliceFrom (protocolSeparator ++ host) 3 : Except (Failure String) Text) = .ok host :=
  sliceFrom_append starts

theorem tryFrom_url {protocol host : Text} (first : NoEarlierSeparator protocol)
    (noColon : colon ∉ host) (starts : StartsChar host) :
    tryFrom (protocol ++ (protocolSeparator ++ host)) = .ok ⟨protocol, host, none⟩ := by
  unfold tryFrom
  rw [find_of_noEarlierSeparator first, rfind_separator noColon]
  dsimp only
  rw [if_pos rfl]
  dsimp only
  rw [splitAt_separator]
  show (sliceFrom (protocolSeparator ++ host) 3 >>= fun hostname => _) = _
  rw [sliceFrom_separator starts]
  rfl

theorem length_behind_separator {protocol host : Text} :
    (protocol ++ (protocolSeparator ++ host)).length ≠ protocol.length := by
  rw [List.length_append, List.length_append, protocolSeparator, List.length_cons]
  omega

theorem tryFrom_urlAndPort {protocol host digits : Text} (first : NoEarlierSeparator protocol)
    (noColon : colon ∉ digits) (hostStarts : StartsChar host) (starts : StartsChar digits) :
    tryFrom (protocol ++ (protocolSeparator ++ (host ++ colon :: digits))) =
      (portNumber digits).map fun port => ⟨protocol, host, some port⟩ := by
  have colonStarts : StartsChar (colon :: digits) := startsChar_cons.mpr rfl
  have assoc : protocol ++ (protocolSeparator ++ (host ++ colon :: digits)) =
      (protocol ++ (protocolSeparator ++ host)) ++ colon :: digits := by
    simp only [List.append_assoc]
  unfold tryFrom
  rw [find_of_noEarlierSeparator first, rfind_port noColon]
  dsimp only
  rw [if_neg fun same => length_behind_separator (Option.some.inj same)]
  dsimp only
  rw [assoc, splitAt_append colonStarts]
  show (parsePort (colon :: digits) >>= fun port => _) = _
  rw [parsePort_colon starts]
  cases portNumber digits with
  | error failure => rfl
  | ok port =>
    show (splitAt (protocol ++ (protocolSeparator ++ host)) protocol.length >>= fun parts => _) = _
    rw [splitAt_separator]
    show (sliceFrom (protocolSeparator ++ host) 3 >>= fun hostname => _) = _
    rw [sliceFrom_separator hostStarts]
    rfl

/-- Reading an endpoint does not panic, whatever the string is. -/
theorem Form.returns_tryFrom {text : Text} (form : Form text) : Returns (tryFrom text) := by
  have returns_map : ∀ (digits : Text) (made : ℕ → Endpoint),
      Returns ((portNumber digits).map made) := by
    intro digits made
    have returns := returns_portNumber digits
    cases read : portNumber digits with
    | ok port => exact returns_ok _
    | error failure =>
      rintro message ⟨⟩
      exact returns message read
  cases form with
  | host noColon => exact tryFrom_host noColon ▸ returns_ok _
  | hostAndPort noSeparator noColon starts =>
    exact tryFrom_hostAndPort noSeparator noColon starts ▸ returns_map _ _
  | url first noColon starts => exact tryFrom_url first noColon starts ▸ returns_ok _
  | urlAndPort first noColon hostStarts starts =>
    exact tryFrom_urlAndPort first noColon hostStarts starts ▸ returns_map _ _

/-! ### The text of an endpoint -/

/-- The endpoints that strings are read as. -/
structure Read (endpoint : Endpoint) : Prop where
  first : NoEarlierSeparator endpoint.protocol
  starts : StartsChar endpoint.host
  noColon : endpoint.port = none → colon ∉ endpoint.host
  small : ∀ port ∈ endpoint.port, port < 2 ^ 16

/-- The text of such an endpoint is read as the endpoint. -/
theorem Read.tryFrom_display {endpoint : Endpoint} (read : Read endpoint) :
    tryFrom endpoint.display = .ok endpoint := by
  rcases endpoint with ⟨protocol, host, _ | port⟩
  · show tryFrom (protocol ++ protocolSeparator ++ host) = _
    rw [List.append_assoc]
    exact tryFrom_url read.first (read.noColon rfl) read.starts
  · show tryFrom (protocol ++ protocolSeparator ++ host ++ [colon] ++ decimal port) = _
    have assoc : protocol ++ protocolSeparator ++ host ++ [colon] ++ decimal port =
        protocol ++ (protocolSeparator ++ (host ++ colon :: decimal port)) := by
      simp only [List.append_assoc, List.singleton_append]
    rw [assoc, tryFrom_urlAndPort read.first (not_mem_decimal rfl port) read.starts
      (startsChar_decimal port), portNumber_decimal (read.small port rfl)]
    rfl

theorem map_eq_ok {digits : Text} {made : ℕ → Endpoint} {endpoint : Endpoint}
    (read : (portNumber digits).map made = .ok endpoint) :
    ∃ port, portNumber digits = .ok port ∧ endpoint = made port := by
  cases number : portNumber digits with
  | error failure =>
    rw [number] at read
    cases read
  | ok port =>
    rw [number] at read
    exact ⟨port, rfl, (Except.ok.inj read).symm⟩

/-- The default protocol contains no separator. -/
theorem noEarlierSeparator_https : NoEarlierSeparator (bytes "https") := by
  unfold NoEarlierSeparator
  decide

theorem Form.read {text : Text} {endpoint : Endpoint} (form : Form text)
    (begins : StartsChar text) (accepted : tryFrom text = .ok endpoint) : Read endpoint := by
  cases form with
  | host noColon =>
    rw [tryFrom_host noColon] at accepted
    cases accepted
    exact ⟨noEarlierSeparator_https, begins, fun _ => noColon, fun _ absent => (nomatch absent)⟩
  | hostAndPort noSeparator noColon starts =>
    rw [tryFrom_hostAndPort noSeparator noColon starts] at accepted
    obtain ⟨port, number, rfl⟩ := map_eq_ok accepted
    refine ⟨noEarlierSeparator_https, begins.of_append, fun absent => (nomatch absent), ?_⟩
    rintro _ ⟨⟩
    exact portNumber_lt number
  | url first noColon starts =>
    rw [tryFrom_url first noColon starts] at accepted
    cases accepted
    exact ⟨first, starts, fun _ => noColon, fun _ absent => (nomatch absent)⟩
  | urlAndPort first noColon hostStarts starts =>
    rw [tryFrom_urlAndPort first noColon hostStarts starts] at accepted
    obtain ⟨port, number, rfl⟩ := map_eq_ok accepted
    refine ⟨first, hostStarts, fun absent => (nomatch absent), ?_⟩
    rintro _ ⟨⟩
    exact portNumber_lt number

/-- Every endpoint that is read is read again from its text. -/
theorem tryFrom_display {string : String} {endpoint : Endpoint}
    (accepted : tryFrom (bytes string) = .ok endpoint) : tryFrom endpoint.display = .ok endpoint :=
  ((form_of_string string).read (encoded_chars string.toList).1 accepted).tryFrom_display

/-! ### A slash at the end -/

/-- A slash at the end completes no separator, unless it makes up the port with another one. -/
theorem find_slash_eq_none {host digits : Text} {port : ℕ} (noColon : colon ∉ digits)
    (noSeparator : find protocolSeparator (host ++ colon :: digits) = none)
    (number : portNumber digits = .ok port) :
    find protocolSeparator (host ++ colon :: (digits ++ [slash])) = none := by
  have assoc : host ++ colon :: (digits ++ [slash]) = (host ++ colon :: digits) ++ [slash] := by
    simp
  refine find_eq_none_iff.mpr fun before after split => ?_
  rw [assoc] at split
  rcases List.eq_nil_or_concat after with rfl | ⟨shorter, last, rfl⟩
  · have halves : host ++ colon :: digits = before ++ colon :: [slash] := by
      refine (List.append_left_inj [slash]).mp ?_
      rw [split]
      simp [protocolSeparator]
    have places := congrArg (rfind colon) halves
    rw [rfind_append noColon, rfind_append (by decide)] at places
    have same := (List.append_inj halves (Option.some.inj places)).2
    rw [List.tail_eq_of_cons_eq same] at number
    cases number
  · refine find_eq_none noSeparator before shorter ?_
    have parts : (host ++ colon :: digits) ++ [slash] =
        (before ++ (protocolSeparator ++ shorter)) ++ [last] := by
      rw [split]
      simp only [List.concat_eq_append, List.append_assoc]
    exact (List.append_inj' parts rfl).1

theorem startsChar_slash {text : Text} (starts : StartsChar text) :
    StartsChar (text ++ [slash]) := by
  cases text with
  | nil => exact startsChar_cons.mpr rfl
  | cons byte rest => exact startsChar_cons.mpr (startsChar_cons.mp starts)

theorem colon_not_mem_slash {text : Text} (noColon : colon ∉ text) : colon ∉ text ++ [slash] := by
  rw [List.mem_append, not_or]
  exact ⟨noColon, by decide⟩

/-- With a slash at its end a host is another one. -/
theorem host_slash_ne {protocol host other : Text} {port : Option ℕ} :
    (.ok ⟨protocol, host ++ [slash], port⟩ : Except (Failure String) Endpoint) ≠
      .ok ⟨other, host, port⟩ := by
  intro same
  have hosts : host ++ [slash] = host := congrArg Endpoint.host (Except.ok.inj same)
  exact absurd (List.append_right_eq_self.mp hosts) (List.cons_ne_nil _ _)

/-- A slash behind a port is ignored, and one behind a host is part of it. -/
theorem Form.tryFrom_slash {text : Text} {endpoint : Endpoint} (form : Form text)
    (accepted : tryFrom text = .ok endpoint) :
    tryFrom (text ++ [slash]) = .ok endpoint ↔ HasPortSeparator text := by
  unfold HasPortSeparator
  cases form with
  | host noColon =>
    rw [tryFrom_host noColon] at accepted
    cases accepted
    have separator : colon ∈ protocolSeparator := List.mem_cons_self
    rw [tryFrom_host (colon_not_mem_slash noColon), rfind_eq_none_iff.mpr noColon,
      find_eq_none_of_not_mem separator noColon]
    exact iff_of_false host_slash_ne (not_not.mpr rfl)
  | @hostAndPort host digits noSeparator noColon starts =>
    rw [tryFrom_hostAndPort noSeparator noColon starts] at accepted
    obtain ⟨port, number, rfl⟩ := map_eq_ok accepted
    have slashed := tryFrom_hostAndPort (find_slash_eq_none noColon noSeparator number)
      (colon_not_mem_slash noColon) (startsChar_slash starts)
    rw [portNumber_slash, number] at slashed
    rw [noSeparator, rfind_append noColon, List.append_assoc]
    exact iff_of_true slashed (Option.some_ne_none _)
  | @url protocol host first noColon starts =>
    rw [tryFrom_url first noColon starts] at accepted
    cases accepted
    rw [List.append_assoc, List.append_assoc,
      tryFrom_url first (colon_not_mem_slash noColon) (startsChar_slash starts),
      find_of_noEarlierSeparator first, rfind_separator noColon]
    exact iff_of_false host_slash_ne (not_not.mpr rfl)
  | @urlAndPort protocol host digits first noColon hostStarts starts =>
    rw [tryFrom_urlAndPort first noColon hostStarts starts] at accepted
    obtain ⟨port, number, rfl⟩ := map_eq_ok accepted
    have slashed := tryFrom_urlAndPort first (colon_not_mem_slash noColon) hostStarts
      (startsChar_slash starts)
    rw [portNumber_slash, number] at slashed
    rw [find_of_noEarlierSeparator first, rfind_port noColon, List.append_assoc, List.append_assoc,
      List.append_assoc]
    refine iff_of_true slashed fun same => ?_
    exact length_behind_separator (Option.some.inj same)

/-! ### Endpoints and the strings they are read from -/

/-- No string makes the parser panic. The text of an endpoint is read as the endpoint again, and
a slash at the end of the string changes nothing, exactly when the string has a separator for its
port. -/
theorem read_back_iff_port_separator (string : String) :
    Returns (tryFrom (bytes string)) ∧
    ∀ endpoint, tryFrom (bytes string) = .ok endpoint →
      ((tryFrom endpoint.display = .ok endpoint ∧
          tryFrom (bytes (string ++ "/")) = .ok endpoint) ↔ HasPortSeparator (bytes string)) := by
  refine ⟨(form_of_string string).returns_tryFrom, fun endpoint accepted => ?_⟩
  have slashed : bytes (string ++ "/") = bytes string ++ [slash] := bytes_append string "/"
  rw [and_iff_right (tryFrom_display accepted), slashed]
  exact (form_of_string string).tryFrom_slash accepted

end Endpoint

/-! ### The endpoint of the test network -/

namespace Sample

theorem read_back_local_port :
    Endpoint.tryFrom (bytes "http://localhost:57291") = .ok Endpoint.localhost ∧
      (Endpoint.tryFrom Endpoint.localhost.display = .ok Endpoint.localhost ∧
        Endpoint.tryFrom (bytes ("http://localhost:57291" ++ "/")) = .ok Endpoint.localhost ↔
      Endpoint.HasPortSeparator (bytes "http://localhost:57291")) := by
  have accepted : Endpoint.tryFrom (bytes "http://localhost:57291") = .ok Endpoint.localhost := by
    decide
  exact ⟨accepted, (Endpoint.read_back_iff_port_separator _).2 _ accepted⟩

/-- Identifiers of networks by their prefixes. -/
instance prefixIds : NetworkIds Text where
  testnet := bytes "mtst"
  devnet := bytes "mdev"
  new custom := some custom

/-- With a slash at its end, the address of the test network is that of a custom network. -/
theorem testnet_slash_custom :
    Endpoint.tryFrom (bytes "https://rpc.testnet.miden.io") = .ok Endpoint.testnet ∧
    Endpoint.tryFrom (bytes ("https://rpc.testnet.miden.io" ++ "/")) ≠ .ok Endpoint.testnet ∧
    ∃ slashed, Endpoint.tryFrom (bytes ("https://rpc.testnet.miden.io" ++ "/")) = .ok slashed ∧
      (Endpoint.testnet.toNetworkId : Except (Failure String) Text) = .ok (bytes "mtst") ∧
      (slashed.toNetworkId : Except (Failure String) Text) = .ok (bytes "mcst") := by
  refine ⟨by decide, by decide, ⟨bytes "https", bytes "rpc.testnet.miden.io/", none⟩, ?_⟩
  exact ⟨by decide, by rfl, by rfl⟩

end Sample

end MidenClient
