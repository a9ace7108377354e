import Athenz.X509CertRequest

namespace Athenz.Zts
open Lib Lib.Text Lib.Result
set_option autoImplicit true

/-- An alternative name; of the kinds that nothing reads only the tag is kept. -/
inductive GeneralName where
  | rfc822Name (text : Str)
  | dNSName (text : Str)
  | uniformResourceIdentifier (text : Str)
  | iPAddress (octets : List UInt8)
  | unread (tagNo : Nat)
deriving DecidableEq

structure Extensions where
  subjectAlternativeName : Option (List GeneralName) := none

/-- An attribute of a request; a value that holds no readable extensions is `none`. -/
structure Attribute where
  attrType : List Nat
  attrValues : List (Option Extensions)

structure PKCS10CertificationRequest where
  attributes : List Attribute

def pkcs_9_at_extensionRequest : List Nat := [1, 2, 840, 113549, 1, 9, 14]

namespace PKCS10CertificationRequest

def getAttributes (certReq : PKCS10CertificationRequest) (attrType : List Nat) : List Attribute :=
  certReq.attributes.filter (·.attrType = attrType)

end PKCS10CertificationRequest

def Extensions.getInstance (value : Option Extensions) : Except Failure Extensions :=
  match value with
  | some extensions => .ok extensions
  | none => .error (.resource 400 "illegal object in getInstance")

def Extensions.generalNames (extensions : Extensions) : List GeneralName :=
  extensions.subjectAlternativeName.getD []

section Readers

def dotted (octets : List UInt8) : Str :=
  ['.'].intercalate (octets.map fun octet => Nat.toDigits 10 octet.toNat)

/-- The groups of an address, two octets each. -/
def hexGroups : List UInt8 → List Str
  | high :: low :: octets => Nat.toDigits 16 (high.toNat * 256 + low.toNat) :: hexGroups octets
  | _ => []

/-- The text of an address; octets that are none have no text. -/
def getHostAddress (octets : List UInt8) : Option Str :=
  if octets.length = 4 then some (dotted octets)
  else if octets.length = 16 then
    if octets.take 12 = List.replicate 10 0 ++ [255, 255] then some (dotted (octets.drop 12))
    else some ([':'].intercalate (hexGroups octets))
  else none

def GeneralName.readRfc822Name : GeneralName → Option Str
  | .rfc822Name text => some text
  | _ => none

def GeneralName.readDNSName : GeneralName → Option Str
  | .dNSName text => some text
  | _ => none

def GeneralName.readURI : GeneralName → Option Str
  | .uniformResourceIdentifier text => some text
  | _ => none

def GeneralName.readIPAddress : GeneralName → Option Str
  | .iPAddress octets => getHostAddress octets
  | _ => none

namespace PKCS10CertificationRequest

/-- What is read in the names of all values of all extension requests. -/
def extractX509CSRSANField (certReq : PKCS10CertificationRequest)
    (read : GeneralName → Option Str) : Except Failure (List Str) := do
  let values := (certReq.getAttributes pkcs_9_at_extensionRequest).flatMap (·.attrValues)
  let extensions ← values.mapM Extensions.getInstance
  return extensions.flatMap fun found => found.generalNames.filterMap read

def extractX509CSREmails (certReq : PKCS10CertificationRequest) : Except Failure (List Str) :=
  certReq.extractX509CSRSANField (·.readRfc822Name)

def extractX509CSRDnsNames (certReq : PKCS10CertificationRequest) : Except Failure (List Str) :=
  certReq.extractX509CSRSANField (·.readDNSName)

def extractX509CSRURIs (certReq : PKCS10CertificationRequest) : Except Failure (List Str) :=
  certReq.extractX509CSRSANField (·.readURI)

def extractX509CSRIPAddresses (certReq : PKCS10CertificationRequest) : Except Failure (List Str) :=
  certReq.extractX509CSRSANField (·.readIPAddress)

/-- The request as the checks see it, with what is read of its subject. -/
def parsed (certReq : PKCS10CertificationRequest) (subject : Csr) : Except Failure Csr := do
  let dnsNames ← certReq.extractX509CSRDnsNames
  let ipAddresses ← certReq.extractX509CSRIPAddresses
  let uris ← certReq.extractX509CSRURIs
  let emails ← certReq.extractX509CSREmails
  return { subject with
    dnsNames := dnsNames
    ipAddresses := ipAddresses
    uris := uris
    emails := emails }

end PKCS10CertificationRequest

/-- The names that go into a certificate. -/
def GeneralName.isCopied : GeneralName → Bool
  | .unread _ => false
  | _ => true

/-- The extensions of an attribute for a certificate: its first value. -/
def Attribute.firstExtensions (attr : Attribute) : Except Failure Extensions :=
  match attr.attrValues with
  | value :: _ => Extensions.getInstance value
  | [] => .error .outOfBounds

/-- The alternative names that `generateX509Certificate` copies. -/
def generateX509CertificateAltNames (certReq : PKCS10CertificationRequest) :
    Except Failure (List GeneralName) := do
  let extensions ← (certReq.getAttributes pkcs_9_at_extensionRequest).mapM (·.firstExtensions)
  return extensions.flatMap fun found => found.generalNames.filter (·.isCopied)

end Readers

section Listed

/-- A name stands in what the checks see. -/
def GeneralName.Listed (csr : Csr) : GeneralName → Prop
  | .rfc822Name text => text ∈ csr.emails
  | .dNSName text => text ∈ csr.dnsNames
  | .uniformResourceIdentifier text => text ∈ csr.uris
  | .iPAddress octets => ∃ address, getHostAddress octets = some address ∧ address ∈ csr.ipAddresses
  | .unread _ => False

namespace PKCS10CertificationRequest

/-- Each name that is copied to a certificate stands in what the checks see. -/
def NamesListed (certReq : PKCS10CertificationRequest) (subject : Csr) : Prop :=
  ∀ csr names, certReq.parsed subject = .ok csr →
    generateX509CertificateAltNames certReq = .ok names → ∀ name ∈ names, name.Listed csr

/-- Every extension request has a value, and all of them can be read. -/
def Readable (certReq : PKCS10CertificationRequest) : Prop :=
  ∀ attr ∈ certReq.getAttributes pkcs_9_at_extensionRequest,
    attr.attrValues ≠ [] ∧ none ∉ attr.attrValues

/-- The addresses in the first values of the extension requests have four or sixteen octets. -/
def AddressesRegular (certReq : PKCS10CertificationRequest) : Prop :=
  ∀ attr ∈ certReq.getAttributes pkcs_9_at_extensionRequest,
    ∀ extensions rest, attr.attrValues = some extensions :: rest →
      ∀ octets, .iPAddress octets ∈ extensions.generalNames →
        octets.length = 4 ∨ octets.length = 16

variable {certReq : PKCS10CertificationRequest}

theorem getInstance_eq_ok : Extensions.getInstance value = .ok extensions ↔ value = some extensions := by
  cases value with
  | none => exact ⟨nofun, nofun⟩
  | some found => rw [Extensions.getInstance, Except.ok.injEq, Option.some.injEq]

theorem mem_extractX509CSRSANField {read : GeneralName → Option Str}
    (h : certReq.extractX509CSRSANField read = .ok texts) :
    text ∈ texts ↔ ∃ attr ∈ certReq.getAttributes pkcs_9_at_extensionRequest,
      ∃ extensions, some extensions ∈ attr.attrValues ∧
        ∃ name ∈ extensions.generalNames, read name = some text := by
  obtain ⟨found, hfound, h⟩ := bind_eq_ok.1 h
  cases h
  simp only [List.mem_flatMap, List.mem_filterMap, mem_mapM hfound, getInstance_eq_ok]
  constructor
  · rintro ⟨extensions, ⟨_, ⟨attr, hattr, hvalue⟩, rfl⟩, hname⟩
    exact ⟨attr, hattr, extensions, hvalue, hname⟩
  · rintro ⟨attr, hattr, extensions, hvalue, hname⟩
    exact ⟨extensions, ⟨_, ⟨attr, hattr, hvalue⟩, rfl⟩, hname⟩

theorem firstExtensions_eq_ok {attr : Attribute} :
    attr.firstExtensions = .ok extensions ↔
      ∃ rest, attr.attrValues = some extensions :: rest := by
  unfold Attribute.firstExtensions
  cases attr.attrValues with
  | nil => exact ⟨nofun, nofun⟩
  | cons value rest =>
    dsimp only
    rw [getInstance_eq_ok]
    simp only [List.cons.injEq, exists_and_left, exists_eq', and_true]

theorem mem_altNames (h : generateX509CertificateAltNames certReq = .ok names) :
    name ∈ names ↔ name.isCopied = true ∧
      ∃ attr ∈ certReq.getAttributes pkcs_9_at_extensionRequest,
        ∃ extensions rest, attr.attrValues = some extensions :: rest ∧
          name ∈ extensions.generalNames := by
  obtain ⟨found, hfound, h⟩ := bind_eq_ok.1 h
  cases h
  simp only [List.mem_flatMap, List.mem_filter, mem_mapM hfound, firstExtensions_eq_ok]
  constructor
  · rintro ⟨extensions, ⟨attr, hattr, rest, hvalues⟩, hname, hcopied⟩
    exact ⟨hcopied, attr, hattr, extensions, rest, hvalues, hname⟩
  · rintro ⟨hcopied, attr, hattr, extensions, rest, hvalues, hname⟩
    exact ⟨extensions, ⟨attr, hattr, rest, hvalues⟩, hname, hcopied⟩

theorem extractX509CSRSANField_ok (h : certReq.Readable) (read : GeneralName → Option Str) :
    ∃ texts, certReq.extractX509CSRSANField read = .ok texts := by
  have hvalues : ∀ value ∈ (certReq.getAttributes pkcs_9_at_extensionRequest).flatMap (·.attrValues),
      ∃ extensions, Extensions.getInstance value = .ok extensions := by
    intro value hmem
    obtain ⟨attr, hattr, hvalue⟩ := List.mem_flatMap.1 hmem
    cases value with
    | none => exact absurd hvalue (h attr hattr).2
    | some extensions => exact ⟨extensions, rfl⟩
  obtain ⟨extensions, hextensions⟩ := mapM_terminates hvalues
  refine ⟨_, bind_eq_ok.2 ⟨extensions, hextensions, rfl⟩⟩

theorem parsed_eq_ok {subject : Csr} : certReq.parsed subject = .ok csr ↔
    ∃ dnsNames ipAddresses uris emails, certReq.extractX509CSRDnsNames = .ok dnsNames ∧
      certReq.extractX509CSRIPAddresses = .ok ipAddresses ∧
      certReq.extractX509CSRURIs = .ok uris ∧ certReq.extractX509CSREmails = .ok emails ∧
      { subject with
        dnsNames := dnsNames
        ipAddresses := ipAddresses
        uris := uris
        emails := emails } = csr := by
  simp only [parsed, bind_eq_ok, pure_eq_ok, exists_and_left]

theorem altNames_ok (h : certReq.Readable) :
    ∃ names, generateX509CertificateAltNames certReq = .ok names := by
  have hfirst : ∀ attr ∈ certReq.getAttributes pkcs_9_at_extensionRequest,
      ∃ extensions, attr.firstExtensions = .ok extensions := by
    intro attr hattr
    obtain ⟨hvalues, hnone⟩ := h attr hattr
    cases hlist : attr.attrValues with
    | nil => exact absurd hlist hvalues
    | cons value rest =>
      cases value with
      | none =>
        rw [hlist] at hnone
        exact absurd List.mem_cons_self hnone
      | some extensions => exact ⟨extensions, firstExtensions_eq_ok.2 ⟨rest, hlist⟩⟩
  obtain ⟨extensions, hextensions⟩ := mapM_terminates hfirst
  exact ⟨_, bind_eq_ok.2 ⟨extensions, hextensions, rfl⟩⟩

theorem readable_of_ok {subject : Csr} (hcsr : certReq.parsed subject = .ok csr)
    (hnames : generateX509CertificateAltNames certReq = .ok names) : certReq.Readable := by
  obtain ⟨dnsNames, _, _, _, hdns, _⟩ := parsed_eq_ok.1 hcsr
  obtain ⟨values, hvalues, _⟩ := bind_eq_ok.1 hdns
  obtain ⟨first, hfirst, _⟩ := bind_eq_ok.1 hnames
  intro attr hattr
  constructor
  · intro hnil
    obtain ⟨extensions, hextensions⟩ := mapM_ok_of_mem hfirst hattr
    obtain ⟨rest, hrest⟩ := firstExtensions_eq_ok.1 hextensions
    rw [hnil] at hrest
    cases hrest
  · intro hnone
    obtain ⟨extensions, hextensions⟩ :=
      mapM_ok_of_mem hvalues (List.mem_flatMap.2 ⟨attr, hattr, hnone⟩)
    cases hextensions

theorem getHostAddress_isSome {octets : List UInt8} :
    (∃ address, getHostAddress octets = some address) ↔
      octets.length = 4 ∨ octets.length = 16 := by
  unfold getHostAddress
  constructor
  · rintro ⟨address, h⟩
    split at h
    · rename_i hfour
      exact .inl hfour
    split at h
    · rename_i hsixteen
      exact .inr hsixteen
    · cases h
  · intro hlength
    split
    · exact ⟨_, rfl⟩
    split
    · split
      · exact ⟨_, rfl⟩
      · exact ⟨_, rfl⟩
    · rename_i hfour hsixteen
      exact (hlength.elim hfour hsixteen).elim

/-- Names of the first values are read by the readers of their kinds. -/
theorem listed_of_copied {subject : Csr} (hcsr : certReq.parsed subject = .ok csr)
    (hattr : attr ∈ certReq.getAttributes pkcs_9_at_extensionRequest)
    (hvalues : attr.attrValues = some extensions :: rest)
    (hname : name ∈ extensions.generalNames) (hcopied : name.isCopied = true)
    (hoctets : ∀ octets, name = .iPAddress octets → octets.length = 4 ∨ octets.length = 16) :
    name.Listed csr := by
  obtain ⟨dnsNames, ipAddresses, uris, emails, hdns, hip, huris, hemails, rfl⟩ := parsed_eq_ok.1 hcsr
  have hvalue : some extensions ∈ attr.attrValues := hvalues ▸ List.mem_cons_self
  cases name with
  | rfc822Name text =>
    exact (mem_extractX509CSRSANField hemails).2 ⟨attr, hattr, extensions, hvalue, _, hname, rfl⟩
  | dNSName text =>
    exact (mem_extractX509CSRSANField hdns).2 ⟨attr, hattr, extensions, hvalue, _, hname, rfl⟩
  | uniformResourceIdentifier text =>
    exact (mem_extractX509CSRSANField huris).2 ⟨attr, hattr, extensions, hvalue, _, hname, rfl⟩
  | iPAddress octets =>
    obtain ⟨address, haddress⟩ := getHostAddress_isSome.2 (hoctets octets rfl)
    exact ⟨address, haddress, (mem_extractX509CSRSANField hip).2
      ⟨attr, hattr, extensions, hvalue, _, hname, haddress⟩⟩
  | unread tagNo => cases hcopied

/-- The checks see all names of a certificate exactly when the addresses are regular, unless the
request cannot be read. -/
theorem namesListed_iff (certReq : PKCS10CertificationRequest) (subject : Csr) :
    certReq.NamesListed subject ↔ (certReq.Readable → certReq.AddressesRegular) := by
  constructor
  · intro h hreadable attr hattr extensions rest hvalues octets hname
    obtain ⟨dnsNames, hdns⟩ := extractX509CSRSANField_ok hreadable (·.readDNSName)
    obtain ⟨ipAddresses, hip⟩ := extractX509CSRSANField_ok hreadable (·.readIPAddress)
    obtain ⟨uris, huris⟩ := extractX509CSRSANField_ok hreadable (·.readURI)
    obtain ⟨emails, hemails⟩ := extractX509CSRSANField_ok hreadable (·.readRfc822Name)
    obtain ⟨names, hnames⟩ := altNames_ok hreadable
    have hcopied : .iPAddress octets ∈ names :=
      (mem_altNames hnames).2 ⟨rfl, attr, hattr, extensions, rest, hvalues, hname⟩
    obtain ⟨address, haddress, _⟩ := h _ names
      (parsed_eq_ok.2 ⟨dnsNames, ipAddresses, uris, emails, hdns, hip, huris, hemails, rfl⟩) hnames _
      hcopied
    exact getHostAddress_isSome.1 ⟨address, haddress⟩
  · intro h csr names hcsr hnames name hname
    have hregular := h (readable_of_ok hcsr hnames)
    obtain ⟨hcopied, attr, hattr, extensions, rest, hvalues, hgeneral⟩ := (mem_altNames hnames).1 hname
    refine listed_of_copied hcsr hattr hvalues hgeneral hcopied ?_
    rintro octets rfl
    exact hregular attr hattr extensions rest hvalues octets hgeneral

/-- A host name and an address together with its mask. -/
def maskedNames : List GeneralName :=
  [.dNSName "web.sports.athenz.cloud", .iPAddress [10, 0, 0, 1, 255, 0, 0, 0]]

def maskedRequest : PKCS10CertificationRequest where
  attributes :=
    [{ attrType := pkcs_9_at_extensionRequest
       attrValues := [some { subjectAlternativeName := some maskedNames }] }]

/-- The checks see no address, and the certificate has one. -/
theorem maskedAddress_notListed : ¬ ∀ certReq subject,
    PKCS10CertificationRequest.NamesListed certReq subject := by
  intro h
  have hnames : generateX509CertificateAltNames maskedRequest = .ok maskedNames := by
    rw [← (show maskedNames.filter (·.isCopied) = maskedNames by decide)]
    rfl
  obtain ⟨address, haddress, _⟩ := h maskedRequest { commonName := "sports.web" } _ _ rfl hnames
    (.iPAddress [10, 0, 0, 1, 255, 0, 0, 0]) (by decide)
  cases haddress

end PKCS10CertificationRequest

end Listed

end Athenz.Zts
