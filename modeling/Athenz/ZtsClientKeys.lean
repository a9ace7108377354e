import Athenz.Lib.Fields
import Athenz.ZtsClientCalls

namespace Athenz.ZtsClient
open Lib Lib.Text Lib.Fields
set_option autoImplicit true

section Fields

/-- A field that is only there with a value. -/
def optional (name : Str) (value : Option Str) : List (Str × Str) :=
  (value.map (name, ·)).toList

def present (value : Option Str) : Option Str := if isEmpty value then none else value

theorem flatMap_optional (name : Str) (value : Option Str) :
    (optional name value).flatMap (fun field => ';' :: written '=' field) =
      value.elim [] fun value => ';' :: (name ++ '=' :: value) := by
  cases value with
  | none => rfl
  | some value => exact List.append_nil _

theorem optional_present (name : Str) (value : Option Str) (f : Str → Str) :
    (optional name ((present value).map f)).flatMap (fun field => ';' :: written '=' field) =
      if isEmpty value then [] else ';' :: (name ++ '=' :: f (value.getD [])) := by
  rw [flatMap_optional]
  unfold present
  split
  · rfl
  · cases value with
    | none => contradiction
    | some value => rfl

theorem keyPart_eq (name : Str) (value : Option Str) :
    keyPart name value =
      (optional name (present value)).flatMap fun field => ';' :: written '=' field := by
  have h := optional_present name value id
  rw [Option.map_id, id] at h
  exact h.symm

theorem lookup_optional (key name : Str) (value : Option Str) :
    (optional name value).lookup key = if key = name then value else none := by
  cases value with
  | none => simp [optional]
  | some value =>
    by_cases h : key = name
    · simp [optional, h]
    · simp [optional, h, beq_eq_false_iff_ne.2 h]

end Fields

section KeyFields

variable (settings : Settings)

def tenantFields (tenantDomain : Str) (tenantService : Option Str) (domainName : Str) :
    List (Str × Str) :=
  [("p".toList, tenantDomain ++ tenantService.elim [] ('.' :: ·)), ("d".toList, domainName)]

def roleKeyFields (tenantDomain : Str) (tenantService : Option Str) (domainName : Str)
    (roleName proxyForPrincipal : Option Str) : List (Str × Str) :=
  tenantFields tenantDomain tenantService domainName ++
    (optional "r".toList ((present roleName).map roleTokenRoles) ++
      optional "u".toList (present proxyForPrincipal))

/-- The roles of a list as one value, none without roles. -/
def rolesValue (roleNames : Option (List Str)) : Option Str := multipleRoleKey (roleNames.getD [])

def accessKeyFields (tenantDomain : Str) (tenantService : Option Str)
    (request : AccessTokenRequest) : List (Str × Str) :=
  tenantFields tenantDomain tenantService request.domainName ++
    (optional "r".toList (rolesValue request.roleNames) ++
      (optional "o".toList (present request.idTokenServiceName) ++
        (optional "u".toList (present request.proxyForPrincipal) ++
          (optional "z".toList ((present request.authorizationDetails).map settings.digest) ++
            optional "s".toList (present request.proxyPrincipalSpiffeUris)))))

theorem encode_tenantFields (tenantDomain : Str) (tenantService : Option Str) (domainName : Str)
    (fields : List (Str × Str)) :
    encode ';' '=' (tenantFields tenantDomain tenantService domainName ++ fields) =
      keyStart tenantDomain tenantService domainName ++
        fields.flatMap fun field => ';' :: written '=' field := by
  rw [tenantFields, encode_append (List.cons_ne_nil _ _), encode_cons]
  simp [written, keyStart]

theorem roleTokenCacheKey_eq (tenantDomain : Str) (tenantService : Option Str) (domainName : Str)
    (roleName proxyForPrincipal : Option Str) :
    roleTokenCacheKey (some tenantDomain) tenantService domainName roleName proxyForPrincipal =
      some (encode ';' '='
        (roleKeyFields tenantDomain tenantService domainName roleName proxyForPrincipal)) := by
  rw [roleKeyFields, encode_tenantFields, List.flatMap_append, ← keyPart_eq, optional_present,
    ← List.append_assoc]
  rfl

theorem multipleRoleKey_eq {roles : List Str} (h : roles ≠ []) :
    multipleRoleKey roles = some ([','].intercalate (roles.insertionSort unitsBefore)) := by
  cases roles with
  | nil => contradiction
  | cons role roles =>
    cases roles with
    | nil => simp [multipleRoleKey]
    | cons other roles => rfl

theorem accessTokenCacheKey_eq (tenantDomain : Str) (tenantService : Option Str)
    (request : AccessTokenRequest) :
    accessTokenCacheKey settings (some tenantDomain) tenantService request.domainName
      request.roleNames request.idTokenServiceName request.proxyForPrincipal
      request.authorizationDetails request.proxyPrincipalSpiffeUris =
      some (encode ';' '=' (accessKeyFields settings tenantDomain tenantService request)) := by
  have hroles : (optional "r".toList (rolesValue request.roleNames)).flatMap
      (fun field => ';' :: written '=' field) = if request.roleNames.getD [] = [] then [] else
        ";r=".toList ++ Java.orNull (multipleRoleKey (request.roleNames.getD [])) := by
    rw [flatMap_optional, rolesValue]
    by_cases hnone : request.roleNames.getD [] = []
    · rw [hnone]
      rfl
    · rw [if_neg hnone, multipleRoleKey_eq hnone]
      rfl
  rw [accessKeyFields, encode_tenantFields, List.flatMap_append, List.flatMap_append,
    List.flatMap_append, List.flatMap_append, hroles, optional_present, ← keyPart_eq, ← keyPart_eq,
    ← keyPart_eq]
  simp only [accessTokenCacheKey, Option.map_some, List.append_assoc]
  rfl

end KeyFields

section Names

/-- Names have no semicolon. -/
structure Client.Named (client : Client) : Prop where
  domain : ∀ text ∈ client.domain, ';' ∉ text
  service : ∀ text ∈ client.service, ';' ∉ text
  sslContext : ∀ text ∈ client.sslContext, ';' ∉ text

theorem Client.Named.tenant {client : Client} (h : client.Named) :
    ∀ text ∈ client.tenantDomain, ';' ∉ text := by
  intro text htext
  unfold Client.tenantDomain at htext
  cases hdomain : client.domain with
  | none =>
    rw [hdomain] at htext
    exact h.sslContext text htext
  | some domain =>
    rw [hdomain] at htext
    exact h.domain text (hdomain ▸ htext)

/-- The roles that a text names. -/
def rolesOf (roleNames : Option Str) : List Str :=
  ((present roleNames).map (splitTrim ',')).getD []

/-- A text that is not empty names some role. -/
structure RoleTokenRequest.Named (request : RoleTokenRequest) : Prop where
  domainName : ';' ∉ request.domainName
  roleNames : ∀ text ∈ present request.roleNames, ';' ∉ text ∧ splitTrim ',' text ≠ []
  proxyForPrincipal : ∀ text ∈ request.proxyForPrincipal, ';' ∉ text

/-- `used` holds of the authorization details that requests have. -/
structure AccessTokenRequest.Named (used : Str → Prop) (request : AccessTokenRequest) : Prop where
  domainName : ';' ∉ request.domainName
  roleNames : ∀ role ∈ request.roleNames.getD [], ';' ∉ role ∧ ',' ∉ role
  idTokenServiceName : ∀ text ∈ request.idTokenServiceName, ';' ∉ text
  proxyForPrincipal : ∀ text ∈ request.proxyForPrincipal, ';' ∉ text
  authorizationDetails : ∀ text ∈ present request.authorizationDetails, used text
  proxyPrincipalSpiffeUris : ∀ text ∈ request.proxyPrincipalSpiffeUris, ';' ∉ text

/-- Requests for the same roles of a domain and the same proxied principal. -/
def RoleTokenRequest.Alike (request other : RoleTokenRequest) : Prop :=
  request.domainName = other.domainName ∧
    (∀ role, role ∈ rolesOf request.roleNames ↔ role ∈ rolesOf other.roleNames) ∧
    present request.proxyForPrincipal = present other.proxyForPrincipal

/-- Requests with the same attributes. -/
def AccessTokenRequest.Alike (request other : AccessTokenRequest) : Prop :=
  request.domainName = other.domainName ∧
    (∀ role, role ∈ request.roleNames.getD [] ↔ role ∈ other.roleNames.getD []) ∧
    present request.idTokenServiceName = present other.idTokenServiceName ∧
    present request.proxyForPrincipal = present other.proxyForPrincipal ∧
    present request.authorizationDetails = present other.authorizationDetails ∧
    present request.proxyPrincipalSpiffeUris = present other.proxyPrincipalSpiffeUris

theorem RoleTokenRequest.Alike.refl (request : RoleTokenRequest) : request.Alike request :=
  ⟨rfl, fun _ => Iff.rfl, rfl⟩

theorem AccessTokenRequest.Alike.refl (request : AccessTokenRequest) : request.Alike request :=
  ⟨rfl, fun _ => Iff.rfl, rfl, rfl, rfl, rfl⟩

theorem of_mem_present {P : Str → Prop} (h : ∀ text ∈ value, P text) :
    ∀ text ∈ present value, P text := by
  unfold present
  split
  · simp
  · exact h

end Names

section Injective

variable {settings : Settings}

/-- Fields that can be told apart in a key. -/
def Separable (fields : List (Str × Str)) : Prop :=
  ∀ field ∈ fields, Plain ';' '=' field.1 ∧ ';' ∉ field.2

theorem Separable.append (h : Separable fields) (h' : Separable others) :
    Separable (fields ++ others) :=
  fun field hfield => (List.mem_append.1 hfield).elim (h field) (h' field)

theorem separable_optional (hname : Plain ';' '=' name) (hvalue : ∀ text ∈ value, ';' ∉ text) :
    Separable (optional name value) := by
  cases value with
  | none => simp [Separable, optional]
  | some value =>
    intro field hfield
    rw [List.mem_singleton.1 hfield]
    exact ⟨hname, hvalue value rfl⟩

theorem separable_tenantFields (htenant : ';' ∉ tenantDomain)
    (hservice : ∀ text ∈ tenantService, ';' ∉ text) (hdomain : ';' ∉ domainName) :
    Separable (tenantFields tenantDomain tenantService domainName) := by
  intro field hfield
  rcases List.mem_cons.1 hfield with rfl | hfield
  · refine ⟨(by decide : Plain ';' '=' "p".toList), ?_⟩
    cases tenantService with
    | none => simpa using htenant
    | some service => simpa [htenant] using hservice service rfl
  · rw [List.mem_singleton.1 hfield]
    exact ⟨(by decide : Plain ';' '=' "d".toList), hdomain⟩

theorem lookup_tenantFields (name tenantDomain : Str) (tenantService : Option Str)
    (domainName : Str) : (tenantFields tenantDomain tenantService domainName).lookup name =
      if name = "p".toList then some (tenantDomain ++ tenantService.elim [] ('.' :: ·))
      else if name = "d".toList then some domainName else none := by
  unfold tenantFields
  rw [List.lookup_cons, List.lookup_cons]
  simp only [List.lookup_nil]
  split <;> split <;> simp_all

theorem tenantFields_append_ne_nil (fields : List (Str × Str)) :
    tenantFields tenantDomain tenantService domainName ++ fields ≠ [] := List.cons_ne_nil _ _

theorem notMem_roles {roles : List Str} (h : ∀ role ∈ roles, ';' ∉ role) :
    ∀ text ∈ multipleRoleKey roles, ';' ∉ text := by
  intro text htext
  by_cases hroles : roles = []
  · rw [hroles] at htext
    cases htext
  · rw [multipleRoleKey_eq hroles] at htext
    cases htext
    exact notMem_intercalate (by decide) fun role hrole =>
      h role ((List.mem_insertionSort unitsBefore).1 hrole)

/-- A key of roles names them, in some order. -/
theorem mem_of_multipleRoleKey {roles others : List Str} (h : ∀ role ∈ roles, ',' ∉ role)
    (h' : ∀ role ∈ others, ',' ∉ role) (heq : multipleRoleKey roles = multipleRoleKey others)
    (role : Str) : role ∈ roles ↔ role ∈ others := by
  have hsplit {roles : List Str} (hne : roles ≠ []) (h : ∀ role ∈ roles, ',' ∉ role) :
      ([','].intercalate (roles.insertionSort unitsBefore)).splitOn ',' =
        roles.insertionSort unitsBefore := by
    refine List.splitOn_intercalate ',' (fun role hrole =>
      h role ((List.mem_insertionSort unitsBefore).1 hrole)) fun hnil => hne ?_
    rw [← List.length_eq_zero_iff, ← List.length_insertionSort unitsBefore, hnil, List.length_nil]
  by_cases hroles : roles = []
  · subst hroles
    by_cases hothers : others = []
    · rw [hothers]
    · rw [multipleRoleKey_eq hothers] at heq
      cases heq
  · rw [multipleRoleKey_eq hroles] at heq
    by_cases hothers : others = []
    · rw [hothers] at heq
      cases heq
    · rw [multipleRoleKey_eq hothers, Option.some.injEq] at heq
      have hsorted := congrArg (List.splitOn ',') heq
      rw [hsplit hroles h, hsplit hothers h'] at hsorted
      rw [← List.mem_insertionSort unitsBefore, hsorted, List.mem_insertionSort]

theorem notMem_of_mem_splitTrim {text role : Str} (h : role ∈ splitTrim ',' text) : ',' ∉ role :=
  notMem_of_mem_splitOn ((splitTrim_startsWith ',' text).subset h)

theorem roleTokenRoles_eq (h : splitTrim ',' text ≠ []) :
    some (roleTokenRoles text) = multipleRoleKey (splitTrim ',' text) := by
  unfold roleTokenRoles
  split
  · rename_i hplain
    rw [splitTrim_of_notMem hplain]
    rfl
  · rw [multipleRoleKey_eq h]
    rfl

theorem map_roleTokenRoles (h : ∀ text ∈ present roleNames, splitTrim ',' text ≠ []) :
    (present roleNames).map roleTokenRoles = multipleRoleKey (rolesOf roleNames) := by
  unfold rolesOf
  cases hpresent : present roleNames with
  | none => rfl
  | some text =>
    rw [Option.map_some, roleTokenRoles_eq (h text hpresent)]
    rfl

theorem notMem_of_mem_rolesOf {role : Str} (h : role ∈ rolesOf roleNames) : ',' ∉ role := by
  unfold rolesOf at h
  cases hpresent : present roleNames with
  | none =>
    rw [hpresent] at h
    cases h
  | some text =>
    rw [hpresent] at h
    exact notMem_of_mem_splitTrim h

theorem separable_roleKeyFields {request : RoleTokenRequest} (htenant : ';' ∉ tenantDomain)
    (hservice : ∀ text ∈ tenantService, ';' ∉ text) (h : request.Named) :
    Separable (roleKeyFields tenantDomain tenantService request.domainName request.roleNames
      request.proxyForPrincipal) := by
  refine (separable_tenantFields htenant hservice h.domainName).append
    ((separable_optional (by decide) ?_).append
      (separable_optional (by decide) (of_mem_present h.proxyForPrincipal)))
  rw [map_roleTokenRoles fun text htext => (h.roleNames text htext).2]
  refine notMem_roles fun role hrole => ?_
  unfold rolesOf at hrole
  cases hpresent : present request.roleNames with
  | none =>
    rw [hpresent] at hrole
    cases hrole
  | some text =>
    rw [hpresent] at hrole
    have hmem := (splitTrim_startsWith ',' text).subset hrole
    exact fun hsemi => (h.roleNames text hpresent).1 (mem_of_mem_splitOn hmem hsemi)

/-- A key of role tokens tells which of them it is for. -/
theorem alike_of_roleKeyFields {request other : RoleTokenRequest} (htenant : ';' ∉ tenantDomain)
    (hservice : ∀ text ∈ tenantService, ';' ∉ text) (h : request.Named)
    (htenant' : ';' ∉ tenantDomain') (hservice' : ∀ text ∈ tenantService', ';' ∉ text)
    (h' : other.Named)
    (heq : encode ';' '=' (roleKeyFields tenantDomain tenantService request.domainName
        request.roleNames request.proxyForPrincipal) =
      encode ';' '=' (roleKeyFields tenantDomain' tenantService' other.domainName
        other.roleNames other.proxyForPrincipal)) : request.Alike other := by
  have hfields := encode_injective (by decide) (tenantFields_append_ne_nil _) (tenantFields_append_ne_nil _)
    (separable_roleKeyFields htenant hservice h) (separable_roleKeyFields htenant' hservice' h') heq
  have hlookup (name : Str) := congrArg (List.lookup name) hfields
  simp only [List.lookup_append, lookup_optional, lookup_tenantFields] at hlookup
  have hdomain := hlookup "d".toList
  have hroles := hlookup "r".toList
  have hproxy := hlookup "u".toList
  simp at hdomain hroles hproxy
  rw [map_roleTokenRoles fun text htext => (h.roleNames text htext).2,
    map_roleTokenRoles fun text htext => (h'.roleNames text htext).2] at hroles
  exact ⟨hdomain, mem_of_multipleRoleKey (fun _ => notMem_of_mem_rolesOf)
    (fun _ => notMem_of_mem_rolesOf) hroles, hproxy⟩

theorem separable_accessKeyFields {request : AccessTokenRequest}
    (hdigest : ∀ text, ';' ∉ settings.digest text) (htenant : ';' ∉ tenantDomain)
    (hservice : ∀ text ∈ tenantService, ';' ∉ text) (h : request.Named used) :
    Separable (accessKeyFields settings tenantDomain tenantService request) := by
  refine (separable_tenantFields htenant hservice h.domainName).append
    ((separable_optional (by decide) (notMem_roles fun role hrole => (h.roleNames role hrole).1)).append
    ((separable_optional (by decide) (of_mem_present h.idTokenServiceName)).append
    ((separable_optional (by decide) (of_mem_present h.proxyForPrincipal)).append
    ((separable_optional (by decide) ?_).append
      (separable_optional (by decide) (of_mem_present h.proxyPrincipalSpiffeUris))))))
  intro text htext
  obtain ⟨details, _, rfl⟩ := Option.map_eq_some_iff.1 htext
  exact hdigest details

/-- A key of access tokens tells which of them it is for. -/
theorem alike_of_accessKeyFields {request other : AccessTokenRequest}
    (hdigest : ∀ text, ';' ∉ settings.digest text)
    (hinjective : ∀ a b, used a → used b → settings.digest a = settings.digest b → a = b)
    (htenant : ';' ∉ tenantDomain) (hservice : ∀ text ∈ tenantService, ';' ∉ text)
    (h : request.Named used) (htenant' : ';' ∉ tenantDomain')
    (hservice' : ∀ text ∈ tenantService', ';' ∉ text) (h' : other.Named used)
    (heq : encode ';' '=' (accessKeyFields settings tenantDomain tenantService request) =
      encode ';' '=' (accessKeyFields settings tenantDomain' tenantService' other)) :
    request.Alike other := by
  have hfields := encode_injective (by decide) (tenantFields_append_ne_nil _) (tenantFields_append_ne_nil _)
    (separable_accessKeyFields hdigest htenant hservice h)
    (separable_accessKeyFields hdigest htenant' hservice' h') heq
  have hlookup (name : Str) := congrArg (List.lookup name) hfields
  simp only [List.lookup_append, lookup_optional, lookup_tenantFields] at hlookup
  have hdomain := hlookup "d".toList
  have hroles := hlookup "r".toList
  have hidToken := hlookup "o".toList
  have hproxy := hlookup "u".toList
  have hdetails := hlookup "z".toList
  have huris := hlookup "s".toList
  simp at hdomain hroles hidToken hproxy hdetails huris
  refine ⟨hdomain, mem_of_multipleRoleKey (fun role hrole => (h.roleNames role hrole).2)
    (fun role hrole => (h'.roleNames role hrole).2) hroles, hidToken, hproxy, ?_, huris⟩
  cases hmine : present request.authorizationDetails with
  | none =>
    cases hother : present other.authorizationDetails with
    | none => rfl
    | some details =>
      rw [hmine, hother] at hdetails
      cases hdetails
  | some details =>
    cases hother : present other.authorizationDetails with
    | none =>
      rw [hmine, hother] at hdetails
      cases hdetails
    | some details' =>
      rw [hmine, hother, Option.map_some, Option.map_some, Option.some.injEq] at hdetails
      rw [hinjective details details' (h.authorizationDetails details hmine)
        (h'.authorizationDetails details' hother) hdetails]

theorem roleTokenCacheKey_some {client : Client}
    (h : client.roleTokenCacheKey domainName roleName proxyForPrincipal = some key) :
    ∃ tenant, client.tenantDomain = some tenant ∧
      encode ';' '=' (roleKeyFields tenant client.service domainName roleName proxyForPrincipal) =
        key := by
  cases htenant : client.tenantDomain with
  | none =>
    rw [Client.roleTokenCacheKey, htenant] at h
    cases h
  | some tenant =>
    rw [Client.roleTokenCacheKey, htenant, roleTokenCacheKey_eq] at h
    exact ⟨tenant, rfl, Option.some.inj h⟩

theorem accessTokenCacheKey_some {client : Client}
    (h : client.accessTokenCacheKey settings request = some key) :
    ∃ tenant, client.tenantDomain = some tenant ∧
      encode ';' '=' (accessKeyFields settings tenant client.service request) = key := by
  cases htenant : client.tenantDomain with
  | none =>
    rw [Client.accessTokenCacheKey, htenant] at h
    cases h
  | some tenant =>
    rw [Client.accessTokenCacheKey, htenant, accessTokenCacheKey_eq] at h
    exact ⟨tenant, rfl, Option.some.inj h⟩

/-- Requests of named clients that share a key of role tokens are alike. -/
theorem roleRequest_alike {client other : Client} {request asked : RoleTokenRequest}
    (hclient : client.Named) (h : request.Named) (hother : other.Named) (hasked : asked.Named)
    (hkey : client.roleTokenCacheKey request.domainName request.roleNames
      request.proxyForPrincipal = some key)
    (hkey' : other.roleTokenCacheKey asked.domainName asked.roleNames
      asked.proxyForPrincipal = some key) : request.Alike asked := by
  obtain ⟨tenant, htenant, rfl⟩ := roleTokenCacheKey_some hkey
  obtain ⟨tenant', htenant', heq⟩ := roleTokenCacheKey_some hkey'
  exact alike_of_roleKeyFields (hclient.tenant tenant htenant) hclient.service h
    (hother.tenant tenant' htenant') hother.service hasked heq.symm

/-- Requests of named clients that share a key of access tokens are alike. -/
theorem accessRequest_alike {client other : Client} {request asked : AccessTokenRequest}
    (hdigest : ∀ text, ';' ∉ settings.digest text)
    (hinjective : ∀ a b, used a → used b → settings.digest a = settings.digest b → a = b)
    (hclient : client.Named) (h : request.Named used) (hother : other.Named)
    (hasked : asked.Named used) (hkey : client.accessTokenCacheKey settings request = some key)
    (hkey' : other.accessTokenCacheKey settings asked = some key) : request.Alike asked := by
  obtain ⟨tenant, htenant, rfl⟩ := accessTokenCacheKey_some hkey
  obtain ⟨tenant', htenant', heq⟩ := accessTokenCacheKey_some hkey'
  exact alike_of_accessKeyFields hdigest hinjective (hclient.tenant tenant htenant)
    hclient.service h (hother.tenant tenant' htenant') hother.service hasked heq.symm

/-- Encoded names have neither semicolons nor commas. -/
theorem notMem_urlEncode (text : Str) : ';' ∉ urlEncode text ∧ ',' ∉ urlEncode text := by
  have hhex : ∀ n < 16, hexDigit n ≠ ';' ∧ hexDigit n ≠ ',' := by decide
  have hchar (c : Char) : ∀ x ∈ encodeChar c, x ≠ ';' ∧ x ≠ ',' := by
    intro x hx
    unfold encodeChar at hx
    split at hx
    · rename_i hplain
      rw [List.mem_singleton.1 hx]
      constructor <;> rintro rfl <;> revert hplain <;> decide
    · split at hx
      · rw [List.mem_singleton.1 hx]
        decide
      · obtain ⟨byte, _, hx⟩ := List.mem_flatMap.1 hx
        have hbyte := byte.toNat_lt
        simp only [List.mem_cons, List.not_mem_nil, or_false] at hx
        rcases hx with rfl | rfl | rfl
        · decide
        · exact hhex _ (by omega)
        · exact hhex _ (by omega)
  constructor
  · intro hmem
    obtain ⟨c, _, hc⟩ := List.mem_flatMap.1 hmem
    exact (hchar c _ hc).1 rfl
  · intro hmem
    obtain ⟨c, _, hc⟩ := List.mem_flatMap.1 hmem
    exact (hchar c _ hc).2 rfl

/-- Requests of named clients that share a key of AWS credentials ask for the same role. -/
theorem awsRequest_alike {client other : Client} {request asked : AwsRequest}
    (hclient : client.Named) (h : ';' ∉ request.domainName) (hother : other.Named)
    (hasked : ';' ∉ asked.domainName) (hkey : awsRequestKey client request.encoded = some key)
    (hkey' : awsRequestKey other asked.encoded = some key) :
    request.domainName = asked.domainName ∧
      urlEncode request.roleName = urlEncode asked.roleName := by
  have hnamed {request : AwsRequest} (h : ';' ∉ request.domainName) : RoleTokenRequest.Named
      { domainName := request.domainName, roleNames := some (urlEncode request.roleName) } := by
    refine ⟨h, fun text htext => ?_, by simp⟩
    have heq : urlEncode request.roleName = text := by
      unfold present at htext
      split at htext
      · cases htext
      · exact Option.some.inj htext
    rw [← heq, splitTrim_of_notMem (notMem_urlEncode _).2]
    exact ⟨(notMem_urlEncode _).1, List.cons_ne_nil _ _⟩
  have halike := roleRequest_alike hclient (hnamed h) hother (hnamed hasked) hkey hkey'
  have hroles (text : Str) (hcomma : ',' ∉ text) :
      rolesOf (some text) = if text = [] then [] else [text] := by
    unfold rolesOf present isEmpty
    by_cases hempty : text = []
    · simp [hempty]
    · simp [hempty, splitTrim_of_notMem hcomma]
  refine ⟨halike.1, ?_⟩
  have hset := halike.2.1
  simp only [hroles _ (notMem_urlEncode _).2] at hset
  by_cases hempty : urlEncode request.roleName = []
  · by_cases hempty' : urlEncode asked.roleName = []
    · rw [hempty, hempty']
    · have := (hset (urlEncode asked.roleName)).2 (by rw [if_neg hempty']; simp)
      rw [if_pos hempty] at this
      cases this
  · have := (hset (urlEncode request.roleName)).1 (by rw [if_neg hempty]; simp)
    split at this
    · cases this
    · exact List.mem_singleton.1 this

end Injective

end Athenz.ZtsClient
