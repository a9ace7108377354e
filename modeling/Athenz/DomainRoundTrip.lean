import Athenz.DomainFiles

namespace Athenz.Zmscli
open Lib.Text
set_option autoImplicit true

section Lookups

theorem lookup_single {key label : String} {value : Node} :
    List.lookup key [(label, value)] = if key = label then some value else none := by
  by_cases h : key = label
  · subst h
    rw [if_pos rfl, List.lookup_cons_self]
  · rw [if_neg h, List.lookup_cons, beq_eq_false_iff_ne.2 h]
    rfl

theorem lookup_dumpStringValue {key label : String} {value : Str} :
    (dumpStringValue label value).lookup key =
      if key = label ∧ value ≠ [] then some (.text value) else none := by
  by_cases hvalue : value = [] <;> simp [dumpStringValue, hvalue, lookup_single]

theorem lookup_dumpInt32Value {key label : String} {value : Option Int} :
    (dumpInt32Value label value).lookup key =
      if key = label ∧ value.getD 0 ≠ 0 then some (.int (value.getD 0)) else none := by
  cases value with
  | none => simp [dumpInt32Value]
  | some value => by_cases h : value = 0 <;> simp [dumpInt32Value, h, lookup_single]

theorem lookup_dumpBoolValue {key label : String} {value : Option Bool} :
    (dumpBoolValue label value).lookup key = if key = label then value.map .bool else none := by
  cases value <;> simp [dumpBoolValue, lookup_single]

theorem lookup_dumpTimestamp {rdl : Rdl T} {key label : String} {value : Option T} :
    (dumpTimestamp rdl label value).lookup key =
      if key = label then value.map fun time => .text (rdl.string time) else none := by
  cases value <;> simp [dumpTimestamp, lookup_single]

theorem lookup_dumpHosts {key : String} {hosts : Option (List Str)} :
    (dumpHosts hosts).lookup key =
      if key = "hosts" then hosts.map fun hosts => .list (hosts.map .text) else none := by
  cases hosts <;> simp [dumpHosts, lookup_single]

theorem lookup_dumpTags {key : String} {tags : Option (List (Str × List Str))}
    (h : key ≠ "tags") : (dumpTags tags).lookup key = none := by
  cases tags <;> simp [dumpTags, lookup_single, h]

theorem lookup_dumpMembers {rdl : Rdl T} {key : String} {members : List (RoleMember T)} :
    (dumpMembers rdl members).lookup key =
      if key = "members" ∧ members ≠ [] then
        some (.list (members.map fun member => .map (dumpMember rdl member)))
      else none := by
  cases members <;> simp [dumpMembers, lookup_single]

theorem lookup_dumpServices {rdl : Rdl T} {key : String} {services : List (ServiceIdentity T)} :
    (dumpServices rdl services).lookup key =
      if key = "services" ∧ services ≠ [] then
        some (.list (services.map fun service => .map (dumpService rdl service)))
      else none := by
  cases services <;> simp [dumpServices, lookup_single]

theorem mapM_text (texts : List Str) : texts.mapM (asString ∘ Node.text) = .ok texts := by
  induction texts with
  | nil => rfl
  | cons text texts ih =>
    rw [List.mapM_cons, ih]
    rfl

end Lookups

section Services

variable {T : Type}

@[simp] theorem Server.serve_nil (server : Server T) : server.serve [] = server := by
  simp only [Server.serve, List.append_nil]

@[simp] theorem Server.serve_serve (server : Server T) (first second : List (Request T)) :
    (server.serve first).serve second = server.serve (first ++ second) := by
  simp only [Server.serve, List.append_assoc]

theorem Server.getServiceIdentity_serve (server : Server T) (requests : List (Request T))
    (name : Str) : (server.serve requests).getServiceIdentity name =
      requests.foldl (Request.onService name) (server.getServiceIdentity name) := by
  simp only [Server.getServiceIdentity, Server.serve, List.foldl_append]

/-- The requests that create a service. -/
def serviceRequests (service : ServiceIdentity T) : List (Request T) :=
  let created : ServiceIdentity T := { name := service.name, publicKeys := service.publicKeys }
  let placed := { created with providerEndpoint := service.providerEndpoint }
  let run := { placed with
    executable := service.executable, user := service.user, group := service.group }
  [.putServiceIdentity created] ++
    (if service.providerEndpoint ≠ [] then
      [.putServiceIdentitySystemMeta service.name service.providerEndpoint] else []) ++
    (if service.user ≠ [] ∨ service.group ≠ [] ∨ service.executable ≠ [] then
      [.putServiceIdentity run] else []) ++
    match service.hosts with
    | some hosts => [.putServiceIdentity { run with hosts := some hosts }]
    | none => []

theorem shortname_own (dn sn : Str) : shortname dn (dn ++ '.' :: sn) = sn := by
  have hstarts : dn ++ ['.'] <+: dn ++ '.' :: sn := ⟨sn, by simp⟩
  rw [shortname, if_pos hstarts, List.drop_append]
  simp

theorem longName_own (dn sn : Str) : longName dn (dn ++ '.' :: sn) = dn ++ '.' :: sn := by
  rw [longName, shortname_own]

theorem generatePublicKeys_written {keys : List PublicKeyEntry} (h : keys ≠ []) :
    generatePublicKeys (keys.map fun key => .map (dumpPublicKey key)) = .error .panicked := by
  cases keys with
  | nil => exact absurd rfl h
  | cons key keys => rfl

section Entries

variable (rdl : Rdl T) (service : ServiceIdentity T)

theorem dumpService_name : entry (dumpService rdl service) "name" = .text service.name := rfl

theorem optionalString_dumped {entries : Entries} {key : String} {value : Str}
    (h : entries.lookup key = if value ≠ [] then some (.text value) else none) :
    optionalString entries key = .ok value := by
  by_cases hvalue : value = []
  · rw [optionalString, h, if_neg (not_not.2 hvalue), hvalue]
  · rw [optionalString, h, if_pos hvalue]
    rfl

theorem dumpService_endpoint :
    optionalString (dumpService rdl service) "providerEndpoint" =
      .ok service.providerEndpoint :=
  optionalString_dumped <| by
    simp only [dumpService, List.lookup_append, lookup_dumpStringValue, lookup_dumpTimestamp,
      lookup_dumpHosts, lookup_single]
    simp

theorem dumpService_user :
    optionalString (dumpService rdl service) "user" = .ok service.user :=
  optionalString_dumped <| by
    simp only [dumpService, List.lookup_append, lookup_dumpStringValue, lookup_dumpTimestamp,
      lookup_dumpHosts, lookup_single]
    simp

theorem dumpService_group :
    optionalString (dumpService rdl service) "group" = .ok service.group :=
  optionalString_dumped <| by
    simp only [dumpService, List.lookup_append, lookup_dumpStringValue, lookup_dumpTimestamp,
      lookup_dumpHosts, lookup_single]
    simp

theorem dumpService_executable :
    optionalString (dumpService rdl service) "executable" = .ok service.executable :=
  optionalString_dumped <| by
    simp only [dumpService, List.lookup_append, lookup_dumpStringValue, lookup_dumpTimestamp,
      lookup_dumpHosts, lookup_single]
    simp

theorem dumpService_hosts :
    (dumpService rdl service).lookup "hosts" =
      service.hosts.map fun hosts => .list (hosts.map .text) := by
  simp only [dumpService, List.lookup_append, lookup_dumpStringValue, lookup_dumpTimestamp,
    lookup_dumpHosts, lookup_single]
  simp

theorem dumpService_publicKeys :
    (dumpService rdl service).lookup "publicKeys" =
      some (.list (service.publicKeys.map fun key => .map (dumpPublicKey key))) := by
  simp only [dumpService, List.lookup_append, lookup_dumpStringValue, lookup_dumpTimestamp,
    lookup_dumpHosts, lookup_single]
  simp

end Entries

theorem importServiceOld_keys {rdl : Rdl T} {dn : Str} {server : Server T}
    {service : ServiceIdentity T} (h : service.publicKeys ≠ []) :
    importServiceOld dn server (.map (dumpService rdl service)) = .error .panicked := by
  simp only [importServiceOld, asMap, bind, Except.bind, dumpService_name, asString,
    dumpService_publicKeys, asList, generatePublicKeys_written h]

theorem importServiceOld_plain (rdl : Rdl T) {dn sn : Str} {server : Server T}
    {service : ServiceIdentity T} (hname : service.name = dn ++ '.' :: sn)
    (hkeys : service.publicKeys = []) (hfresh : server.getServiceIdentity service.name = none) :
    importServiceOld dn server (.map (dumpService rdl service)) =
      .ok (server.serve (serviceRequests service)) := by
  have hlong : longName dn service.name = service.name := by rw [hname, longName_own]
  simp only [importServiceOld, asMap, bind, Except.bind, dumpService_name, asString,
    dumpService_publicKeys, asList, hkeys, List.map_nil, generatePublicKeys, List.mapM_nil,
    pure, Except.pure, addServiceWithKeys, hlong, hfresh, dumpService_endpoint, dumpService_user,
    dumpService_group, dumpService_executable, dumpService_hosts]
  by_cases hrun : service.user ≠ [] ∨ service.group ≠ [] ∨ service.executable ≠ []
  · by_cases hendpoint : service.providerEndpoint = [] <;> cases hhosts : service.hosts <;>
      simp [hendpoint, hrun, hhosts, serviceRequests, setServiceEndpoint, setServiceExe,
        addServiceHost, hlong, Server.getServiceIdentity_serve, Request.onService, hkeys,
        mapM_text, addHosts]
  · simp only [not_or, not_not] at hrun
    by_cases hendpoint : service.providerEndpoint = [] <;> cases hhosts : service.hosts <;>
      simp [hendpoint, hrun, hhosts, serviceRequests, setServiceEndpoint,
        addServiceHost, hlong, Server.getServiceIdentity_serve, Request.onService, hkeys,
        mapM_text, addHosts]

/-- No request for one service touches another. -/
theorem serviceRequests_elsewhere {service : ServiceIdentity T} {name : Str}
    (h : service.name ≠ name) (current : Option (ServiceIdentity T)) :
    (serviceRequests service).foldl (Request.onService name) current = current := by
  cases hhosts : service.hosts <;> by_cases hendpoint : service.providerEndpoint = [] <;>
    by_cases hrun : service.user ≠ [] ∨ service.group ≠ [] ∨ service.executable ≠ [] <;>
    simp [serviceRequests, hhosts, hendpoint, hrun, Request.onService, h]

/-- The services of a domain, each under its name. -/
structure ServicesFormed (dn : Str) (services : List (ServiceIdentity T)) : Prop where
  named : ∀ service ∈ services, ∃ sn, service.name = dn ++ '.' :: sn
  distinct : (services.map ServiceIdentity.name).Nodup

theorem importServicesOld_plain {rdl : Rdl T} {dn : Str} {services : List (ServiceIdentity T)}
    {server : Server T} (hformed : ServicesFormed dn services)
    (hkeys : ∀ service ∈ services, service.publicKeys = [])
    (hfresh : ∀ service ∈ services, server.getServiceIdentity service.name = none) :
    importServicesOld dn server (services.map fun service => .map (dumpService rdl service)) =
      .ok (server.serve (services.flatMap serviceRequests)) := by
  induction services generalizing server with
  | nil => simp [importServicesOld, pure, Except.pure]
  | cons service services ih =>
    obtain ⟨sn, hname⟩ := hformed.named service List.mem_cons_self
    obtain ⟨hnew, hdistinct⟩ := List.nodup_cons.1 hformed.distinct
    have hfirst := importServiceOld_plain rdl hname (hkeys service List.mem_cons_self)
      (hfresh service List.mem_cons_self)
    have hrest : importServicesOld dn (server.serve (serviceRequests service))
        (services.map fun service => .map (dumpService rdl service)) =
        .ok ((server.serve (serviceRequests service)).serve
          (services.flatMap serviceRequests)) := by
      refine ih ⟨fun other hother => hformed.named other (List.mem_cons_of_mem _ hother),
        hdistinct⟩ (fun other hother => hkeys other (List.mem_cons_of_mem _ hother)) ?_
      intro other hother
      have hne : service.name ≠ other.name := fun heq =>
        hnew (heq ▸ List.mem_map_of_mem hother)
      rw [Server.getServiceIdentity_serve, serviceRequests_elsewhere hne,
        hfresh other (List.mem_cons_of_mem _ hother)]
    rw [Server.serve_serve] at hrest
    simp only [importServicesOld, List.map_cons, List.foldlM_cons, bind, Except.bind, hfirst,
      List.flatMap_cons]
    exact hrest

theorem importServicesOld_keys {rdl : Rdl T} {dn : Str} {services : List (ServiceIdentity T)}
    {server after : Server T}
    (h : importServicesOld dn server
      (services.map fun service => .map (dumpService rdl service)) = .ok after) :
    ∀ service ∈ services, service.publicKeys = [] := by
  induction services generalizing server with
  | nil => intro service hservice; cases hservice
  | cons service services ih =>
    have hkeys : service.publicKeys = [] := by
      by_contra hkeys
      simp only [importServicesOld, List.map_cons, List.foldlM_cons, bind, Except.bind,
        importServiceOld_keys hkeys] at h
      cases h
    cases hfirst : importServiceOld dn server (.map (dumpService rdl service)) with
    | error failure =>
      simp only [importServicesOld, List.map_cons, List.foldlM_cons, bind, Except.bind, hfirst]
        at h
      cases h
    | ok next =>
      simp only [importServicesOld, List.map_cons, List.foldlM_cons, bind, Except.bind, hfirst]
        at h
      exact List.forall_mem_cons.2 ⟨hkeys, ih h⟩

end Services

section Members

variable {T : Type} {rdl : Rdl T}

/-- What a request carries of a member. -/
def RoleMember.plain (member : RoleMember T) : RoleMember T where
  memberName := member.memberName
  expiration := member.expiration
  reviewReminder := member.reviewReminder

theorem lookup_dumpFlag {key label : String} {value : Bool} (h : key ≠ label) :
    (dumpFlag label value).lookup key = none := by
  cases value <;> simp [dumpFlag, lookup_single, h]

theorem optionalTimestamp_dumped (hlawful : rdl.Lawful) {entries : Entries} {key : String}
    {value : Option T}
    (h : entries.lookup key = value.map fun time => .text (rdl.string time)) :
    optionalTimestamp rdl entries key = .ok value := by
  cases value with
  | none => rw [optionalTimestamp, h]; rfl
  | some time =>
    rw [optionalTimestamp, h]
    simp only [Option.map_some, asString, bind, Except.bind, hlawful time, pure, Except.pure]

theorem parseRoleMember_dumped (hlawful : rdl.Lawful) (member : RoleMember T) :
    parseRoleMember rdl (dumpMember rdl member) = .ok member.plain := by
  have hexpiration : optionalTimestamp rdl (dumpMember rdl member) "expiration" =
      .ok member.expiration := by
    refine optionalTimestamp_dumped hlawful ?_
    simp only [dumpMember, List.lookup_append, lookup_dumpTimestamp, lookup_single]
    simp [lookup_dumpFlag]
  have hreview : optionalTimestamp rdl (dumpMember rdl member) "review" =
      .ok member.reviewReminder := by
    refine optionalTimestamp_dumped hlawful ?_
    simp only [dumpMember, List.lookup_append, lookup_dumpTimestamp, lookup_single]
    simp [lookup_dumpFlag]
  have hname : entry (dumpMember rdl member) "name" = .text member.memberName := rfl
  simp only [parseRoleMember, hname, hexpiration, hreview, asString, bind, Except.bind, pure,
    Except.pure, RoleMember.plain]

theorem parseRoleMembers_dumped (hlawful : rdl.Lawful) (members : List (RoleMember T)) :
    parseRoleMembers rdl (members.map fun member => .map (dumpMember rdl member)) =
      .ok (members.map RoleMember.plain) := by
  unfold parseRoleMembers
  induction members with
  | nil => rfl
  | cons member members ih =>
    rw [List.map_cons, List.mapM_cons, ih]
    simp only [asMap, bind, Except.bind, parseRoleMember_dumped hlawful, pure, Except.pure,
      List.map_cons]

/-- The administrators that are not known yet, each once. -/
def missingAdmins (known : List Str) : List Str → List Str
  | [] => []
  | admin :: admins =>
    if admin ∈ known then missingAdmins known admins
    else admin :: missingAdmins (admin :: known) admins

theorem containsMember_iff {roleMembers : List (RoleMember T)} {member : Str} :
    containsMember roleMembers member = true ↔ member ∈ roleMembers.map RoleMember.memberName := by
  simp [containsMember]

theorem addAdmins_eq {current roleMembers : List (RoleMember T)} {known admins : List Str}
    (h : ∀ name, name ∈ known ↔ name ∈ roleMembers.map RoleMember.memberName ∨
      name ∈ current.map RoleMember.memberName) :
    addAdmins current roleMembers admins =
      roleMembers ++ (missingAdmins known admins).map fun admin => { memberName := admin } := by
  induction admins generalizing roleMembers known with
  | nil => simp [addAdmins, missingAdmins]
  | cons admin admins ih =>
    have hknown : (!containsMember roleMembers admin && !containsMember current admin) = true ↔
        admin ∉ known := by
      rw [Bool.and_eq_true, Bool.not_eq_true', Bool.not_eq_true', ← Bool.not_eq_true,
        ← Bool.not_eq_true, containsMember_iff, containsMember_iff, h admin, not_or]
    by_cases hadmin : admin ∈ known
    · rw [addAdmins, if_neg fun hnew => hknown.1 hnew hadmin, missingAdmins, if_pos hadmin]
      exact ih h
    · rw [addAdmins, if_pos (hknown.2 hadmin), missingAdmins, if_neg hadmin]
      have hmore : ∀ name, name ∈ admin :: known ↔
          name ∈ (roleMembers ++ [({ memberName := admin } : RoleMember T)]).map
            RoleMember.memberName ∨
            name ∈ current.map RoleMember.memberName := by
        intro name
        simp only [List.mem_cons, List.map_append, List.map_cons, List.map_nil, List.mem_append,
          List.not_mem_nil, or_false, h name]
        tauto
      rw [ih hmore]
      simp

end Members

section Roles

variable {T : Type} {rdl : Rdl T} {cli : Cli}

theorem localName_own {dn objType : Str} (hdn : ':' ∉ dn) (hobj : ':' ∉ objType) (name : Str) :
    localName (dn ++ (':' :: objType ++ name)) (':' :: objType) = name := by
  have hinfix : ¬ ':' :: objType <:+: dn := fun h => hdn (h.subset List.mem_cons_self)
  rw [localName, indexOf_append_self hobj hinfix]
  simp only [List.drop_append]
  simp

theorem localName_role {dn : Str} (hdn : ':' ∉ dn) (rn : Str) :
    localName (dn ++ ":role.".toList ++ rn) ":role.".toList = rn := by
  have hobj : ':' ∉ "role.".toList := by decide
  rw [List.append_assoc]
  exact localName_own hdn hobj rn

theorem lookup_roleSettings {role : Role T} {key : String}
    (h : key = "members" ∨ key = "trust") : (roleSettings role).lookup key = none := by
  rcases h with rfl | rfl <;>
    simp only [roleSettings, List.lookup_append, lookup_dumpInt32Value, lookup_dumpBoolValue,
      lookup_dumpStringValue] <;> simp

theorem dumpRole_name {role : Role T} :
    entry (dumpRole rdl role) "name" = .text (localName role.name ":role.".toList) :=
  rfl

theorem dumpRole_members {role : Role T} :
    (dumpRole rdl role).lookup "members" =
      if role.roleMembers ≠ [] then
        some (.list (role.roleMembers.map fun member => .map (dumpMember rdl member)))
      else none := by
  simp only [dumpRole, List.lookup_append, lookup_single, lookup_roleSettings (.inl rfl),
    lookup_dumpMembers, lookup_dumpStringValue]
  simp [lookup_dumpTags]

theorem dumpRole_trust {role : Role T} :
    (dumpRole rdl role).lookup "trust" =
      if role.trust ≠ [] then some (.text role.trust) else none := by
  simp only [dumpRole, List.lookup_append, lookup_single, lookup_roleSettings (.inr rfl),
    lookup_dumpMembers, lookup_dumpStringValue]
  simp [lookup_dumpTags]

def roleName (dn rn : Str) : Str := dn ++ ":role.".toList ++ rn

def adminRole (dn : Str) : Str := roleName dn "admin".toList

/-- What is put for a role. -/
def sentRole (cli : Cli) (role : Role T) : Role T where
  name := role.name
  roleMembers := cli.validateRoleMembers (role.roleMembers.map RoleMember.plain)
  trust := role.trust

/-- The memberships that are put for an admin role. -/
def sentAdmins (cli : Cli) (current : List (RoleMember T)) (validatedAdmins : List Str)
    (role : Role T) : List (Request T) :=
  ((role.roleMembers.map RoleMember.plain).filter fun member =>
      !containsMember current member.memberName).map (fun member =>
    .putMembership "admin".toList (cli.validatedUser member.memberName) member.expiration none) ++
  (missingAdmins ((role.roleMembers ++ current).map RoleMember.memberName) validatedAdmins).map
    fun admin => .putMembership "admin".toList (cli.validatedUser admin) none none

def sentRequests (cli : Cli) (dn : Str) (current : List (RoleMember T))
    (validatedAdmins : List Str) (role : Role T) : List (Request T) :=
  if role.name = adminRole dn then sentAdmins cli current validatedAdmins role
  else [.putRole (sentRole cli role)]

/-- The roles of a domain, each under its name, either with members or delegated. -/
structure RolesFormed (dn : Str) (roles : List (Role T)) : Prop where
  named : ∀ role ∈ roles, ∃ rn, role.name = roleName dn rn
  distinct : (roles.map Role.name).Nodup
  exclusive : ∀ role ∈ roles, role.roleMembers = [] ∨ role.trust = []

theorem addRole_new {server : Server T} {dn rn : Str} {role : Role T}
    (h : server.hasRole dn rn = false) : addRole server dn rn role =
      .ok (server.serve [.putRole role]) := by
  have hrn : rn ≠ "admin".toList := by
    rintro rfl
    cases h
  rw [addRole, h, if_neg Bool.false_ne_true, if_neg hrn]

theorem importRoleOld_regular (hlawful : rdl.Lawful) {dn rn : Str} {validatedAdmins : List Str}
    {server : Server T} {role : Role T} (hdn : ':' ∉ dn) (hname : role.name = roleName dn rn)
    (hexclusive : role.roleMembers = [] ∨ role.trust = [])
    (hnew : server.hasRole dn rn = false) :
    cli.importRoleOld rdl dn validatedAdmins server (.map (dumpRole rdl role)) =
      .ok (server.serve [.putRole (sentRole cli role)]) := by
  have hrn : rn ≠ "admin".toList := by
    rintro rfl
    cases hnew
  have hlocal : localName role.name ":role.".toList = rn := by
    rw [hname, roleName, localName_role hdn]
  cases hmembers : role.roleMembers with
  | cons member members =>
    have htrust : role.trust = [] := by simpa [hmembers] using hexclusive
    have hparsed := parseRoleMembers_dumped hlawful role.roleMembers
    have hne : role.roleMembers ≠ [] := by rw [hmembers]; exact List.cons_ne_nil _ _
    simp only [Cli.importRoleOld, asMap, bind, Except.bind, dumpRole_name, asString, hlocal,
      dumpRole_members, if_pos hne, asList, hparsed, if_neg hrn, Cli.addRegularRole,
      addRole_new hnew, sentRole, htrust]
    rw [hname]
    rfl
  | nil =>
    by_cases htrust : role.trust = []
    · simp only [Cli.importRoleOld, asMap, bind, Except.bind, dumpRole_name, asString, hlocal,
        dumpRole_members, dumpRole_trust, htrust, ne_eq, not_true_eq_false,
        if_false, Cli.addRegularRole, addRole_new hnew, sentRole, hmembers,
        List.map_nil]
      rw [hname]
      rfl
    · simp only [Cli.importRoleOld, asMap, bind, Except.bind, dumpRole_name, asString, hlocal,
        dumpRole_members, dumpRole_trust, htrust, ne_eq, not_true_eq_false, not_false_eq_true,
        if_true, if_false, addDelegatedRole, addRole_new hnew, sentRole, hmembers, List.map_nil,
        Cli.validateRoleMembers]
      rw [hname]
      rfl

theorem importRoleOld_admin (hlawful : rdl.Lawful) {dn : Str} {validatedAdmins : List Str}
    {server : Server T} {role : Role T} (hdn : ':' ∉ dn) (hname : role.name = adminRole dn)
    (hmembers : role.roleMembers ≠ []) :
    cli.importRoleOld rdl dn validatedAdmins server (.map (dumpRole rdl role)) =
      .ok (server.serve (sentAdmins cli server.getAdmins validatedAdmins role)) := by
  have hlocal : localName role.name ":role.".toList = "admin".toList := by
    rw [hname, adminRole, roleName, localName_role hdn]
  have hparsed := parseRoleMembers_dumped hlawful role.roleMembers
  have hknown : ∀ name,
      name ∈ (role.roleMembers ++ server.getAdmins).map RoleMember.memberName ↔
      name ∈ ((role.roleMembers.map RoleMember.plain).filter fun member =>
        !containsMember server.getAdmins member.memberName).map RoleMember.memberName ∨
      name ∈ server.getAdmins.map RoleMember.memberName := by
    intro name
    rw [List.map_append, List.mem_append]
    constructor
    · rintro (hexported | hcurrent)
      · by_cases hcurrent : name ∈ server.getAdmins.map RoleMember.memberName
        · exact .inr hcurrent
        · obtain ⟨member, hmember, rfl⟩ := List.mem_map.1 hexported
          refine .inl (List.mem_map.2 ⟨member.plain, List.mem_filter.2
            ⟨List.mem_map_of_mem hmember, ?_⟩, rfl⟩)
          rw [Bool.not_eq_true', ← Bool.not_eq_true, containsMember_iff]
          exact hcurrent
      · exact .inr hcurrent
    · rintro (hkept | hcurrent)
      · obtain ⟨plain, hplain, rfl⟩ := List.mem_map.1 hkept
        obtain ⟨member, hmember, rfl⟩ := List.mem_map.1 (List.mem_filter.1 hplain).1
        exact .inl (List.mem_map.2 ⟨member, hmember, rfl⟩)
      · exact .inr hcurrent
  simp only [Cli.importRoleOld, asMap, bind, Except.bind, dumpRole_name, asString, hlocal,
    dumpRole_members, if_pos hmembers, asList, hparsed, if_true, pure, Except.pure,
    Cli.addRoleMembers, addAdmins_eq hknown, sentAdmins, Cli.validateRoleMembers, List.map_append,
    List.map_map]
  rfl

theorem importRoleOld_emptyAdmin (rdl : Rdl T) (cli : Cli) (validatedAdmins : List Str)
    (server : Server T) {dn : Str} {role : Role T} (hdn : ':' ∉ dn) (hname : role.name = adminRole dn)
    (hmembers : role.roleMembers = []) :
    ∃ failure, cli.importRoleOld rdl dn validatedAdmins server (.map (dumpRole rdl role)) =
      .error failure := by
  have hlocal : localName role.name ":role.".toList = "admin".toList := by
    rw [hname, adminRole, roleName, localName_role hdn]
  have hnone : ¬ role.roleMembers ≠ [] := not_not.2 hmembers
  have hthere : server.hasRole dn "admin".toList = true := rfl
  by_cases htrust : role.trust = [] <;>
    simp only [Cli.importRoleOld, asMap, bind, Except.bind, dumpRole_name, asString, hlocal,
      dumpRole_members, if_neg hnone, dumpRole_trust, htrust, ne_eq, not_true_eq_false,
      not_false_eq_true, if_true, if_false, Cli.addRegularRole, addDelegatedRole, addRole,
      hthere, Except.error.injEq, exists_eq']

theorem Server.hasRole_of_new {server : Server T} {dn rn : Str} (hrn : rn ≠ "admin".toList)
    (h : server.requests.any (Request.createsRole (roleName dn rn)) = false) :
    server.hasRole dn rn = false := by
  rw [Server.hasRole, decide_eq_false hrn, Bool.false_or]
  exact h

theorem Server.getAdmins_serve (server : Server T) (requests : List (Request T)) :
    (server.serve requests).getAdmins =
      server.getAdmins ++ requests.filterMap Request.adminMember := by
  simp only [Server.getAdmins, Server.serve, List.filterMap_append, List.append_assoc]

/-- Only a role's own requests create it. -/
theorem sentRequests_creates {dn name : Str} {current : List (RoleMember T)}
    {validatedAdmins : List Str} {role : Role T} (h : role.name ≠ name) :
    (sentRequests cli dn current validatedAdmins role).any (Request.createsRole name) = false := by
  unfold sentRequests
  split_ifs
  · rw [List.any_eq_false]
    intro request hrequest
    rcases List.mem_append.1 hrequest with hsent | hsent <;>
      obtain ⟨_, -, rfl⟩ := List.mem_map.1 hsent <;> exact Bool.false_ne_true
  · simp [Request.createsRole, sentRole, h]

theorem importRolesOld_sent (hlawful : rdl.Lawful) {dn : Str} {validatedAdmins : List Str}
    {roles : List (Role T)} {current : List (RoleMember T)} {server : Server T}
    (hdn : ':' ∉ dn) (hformed : RolesFormed dn roles)
    (hadmins : ∀ role ∈ roles, role.name = adminRole dn → role.roleMembers ≠ [])
    (hnew : ∀ role ∈ roles, server.requests.any (Request.createsRole role.name) = false)
    (hcurrent : (∃ role ∈ roles, role.name = adminRole dn) → server.getAdmins = current) :
    cli.importRolesOld rdl dn validatedAdmins server
        (roles.map fun role => .map (dumpRole rdl role)) =
      .ok (server.serve (roles.flatMap (sentRequests cli dn current validatedAdmins))) := by
  induction roles generalizing server with
  | nil => simp [Cli.importRolesOld, pure, Except.pure]
  | cons role roles ih =>
    obtain ⟨hmissing, hdistinct⟩ := List.nodup_cons.1 hformed.distinct
    have hother : ∀ other ∈ roles, role.name ≠ other.name := fun other hmem heq =>
      hmissing (heq ▸ List.mem_map_of_mem hmem)
    have hfirst : cli.importRoleOld rdl dn validatedAdmins server (.map (dumpRole rdl role)) =
        .ok (server.serve (sentRequests cli dn current validatedAdmins role)) := by
      by_cases hadmin : role.name = adminRole dn
      · rw [sentRequests, if_pos hadmin, ← hcurrent ⟨role, List.mem_cons_self, hadmin⟩]
        exact importRoleOld_admin hlawful hdn hadmin (hadmins role List.mem_cons_self hadmin)
      · obtain ⟨rn, hname⟩ := hformed.named role List.mem_cons_self
        have hrn : rn ≠ "admin".toList := fun hrn => hadmin (hname.trans (hrn ▸ rfl))
        rw [sentRequests, if_neg hadmin]
        refine importRoleOld_regular hlawful hdn hname
          (hformed.exclusive role List.mem_cons_self) (Server.hasRole_of_new hrn ?_)
        rw [← hname]
        exact hnew role List.mem_cons_self
    have hrest : cli.importRolesOld rdl dn validatedAdmins
        (server.serve (sentRequests cli dn current validatedAdmins role))
        (roles.map fun role => .map (dumpRole rdl role)) =
        .ok ((server.serve (sentRequests cli dn current validatedAdmins role)).serve
          (roles.flatMap (sentRequests cli dn current validatedAdmins))) := by
      refine ih ⟨fun other hmem => hformed.named other (List.mem_cons_of_mem _ hmem), hdistinct,
        fun other hmem => hformed.exclusive other (List.mem_cons_of_mem _ hmem)⟩
        (fun other hmem => hadmins other (List.mem_cons_of_mem _ hmem)) ?_ ?_
      · intro other hmem
        rw [Server.serve, List.any_append, hnew other (List.mem_cons_of_mem _ hmem),
          sentRequests_creates (hother other hmem), Bool.or_self]
      · rintro ⟨other, hmem, hadmin⟩
        have hregular : role.name ≠ adminRole dn := fun hrole =>
          hother other hmem (hrole.trans hadmin.symm)
        rw [Server.getAdmins_serve, sentRequests, if_neg hregular,
          hcurrent ⟨other, List.mem_cons_of_mem _ hmem, hadmin⟩]
        exact List.append_nil _
    rw [Server.serve_serve] at hrest
    simp only [Cli.importRolesOld, List.map_cons, List.foldlM_cons, bind, Except.bind, hfirst,
      List.flatMap_cons]
    exact hrest

theorem importRolesOld_admins {dn : Str} {validatedAdmins : List Str}
    {roles : List (Role T)} {server after : Server T} (hdn : ':' ∉ dn)
    (h : cli.importRolesOld rdl dn validatedAdmins server
      (roles.map fun role => .map (dumpRole rdl role)) = .ok after) :
    ∀ role ∈ roles, role.name = adminRole dn → role.roleMembers ≠ [] := by
  induction roles generalizing server with
  | nil => intro role hrole; cases hrole
  | cons role roles ih =>
    simp only [Cli.importRolesOld, List.map_cons, List.foldlM_cons, bind, Except.bind] at h
    cases hfirst : cli.importRoleOld rdl dn validatedAdmins server (.map (dumpRole rdl role)) with
    | error failure => rw [hfirst] at h; cases h
    | ok next =>
      rw [hfirst] at h
      refine List.forall_mem_cons.2 ⟨fun hadmin hmembers => ?_, ih h⟩
      obtain ⟨failure, hfails⟩ := importRoleOld_emptyAdmin rdl cli validatedAdmins server hdn
        hadmin hmembers
      rw [hfails] at hfirst
      cases hfirst

end Roles

section Policies

/-- The role and the resource of an assertion are qualified names without white space. -/
structure AssertionFormed (assertion : Assertion) : Prop where
  role : ∃ dn rn, assertion.role = roleName dn rn ∧ ':' ∉ dn ∧ ':' ∉ rn ∧ ' ' ∉ rn
  resource : ∃ dn text, assertion.resource = dn ++ ':' :: text ∧ ':' ∉ dn ∧ ' ' ∉ dn ∧ ' ' ∉ text
  action : ' ' ∉ assertion.action

/-- What an import makes of a written assertion. -/
def rereadAssertion (dn : Str) (assertion : Assertion) : Assertion where
  role := qualified dn ":role.".toList (localName assertion.role ":role.".toList)
  resource := qualified dn ":".toList (dumpResource dn assertion.resource)
  action := assertion.action
  effect := some (assertion.effect.getD .allow)

theorem dumpEffect_parsed (effect : Option AssertionEffect) :
    parseEffect (dumpEffect effect) = .ok (effect.getD .allow) := by
  rcases effect with _ | _ | _ <;> rfl

theorem dumpEffect_unspaced (effect : Option AssertionEffect) : ' ' ∉ dumpEffect effect := by
  rcases effect with _ | _ | _ <;> decide

theorem dumpResource_unspaced {dn resource : Str} (h : ' ' ∉ resource) :
    ' ' ∉ dumpResource dn resource := by
  unfold dumpResource
  split_ifs
  · exact fun hmem => h (List.mem_of_mem_drop hmem)
  · exact h

theorem dumpAssertion_words (dn : Str) (assertion : Assertion) :
    dumpAssertion dn assertion = [' '].intercalate
      [dumpEffect assertion.effect, assertion.action, "to".toList,
        localName assertion.role ":role.".toList, "on".toList,
        dumpResource dn assertion.resource] := by
  have hto : " to ".toList = ' ' :: "to".toList ++ [' '] := rfl
  have hon : " on ".toList = ' ' :: "on".toList ++ [' '] := rfl
  simp only [dumpAssertion, hto, hon, List.intercalate, List.intersperse, List.flatten_cons,
    List.flatten_nil, List.append_assoc, List.cons_append, List.nil_append, List.append_nil]

theorem parseAssertion_dumped {dn : Str} {assertion : Assertion}
    (h : AssertionFormed assertion) :
    parseAssertion dn ((dumpAssertion dn assertion).splitOn ' ') =
      .ok (rereadAssertion dn assertion) := by
  obtain ⟨roleDomain, rn, hrole, hroleDomain, -, hrn⟩ := h.role
  obtain ⟨resourceDomain, text, hresource, -, hspaceDomain, hspaceText⟩ := h.resource
  have hlocal : ' ' ∉ localName assertion.role ":role.".toList := by
    rw [hrole, roleName, localName_role hroleDomain]
    exact hrn
  have hwritten : ' ' ∉ dumpResource dn assertion.resource := by
    refine dumpResource_unspaced ?_
    rw [hresource]
    simp [hspaceDomain, hspaceText]
  rw [dumpAssertion_words, List.splitOn_intercalate]
  · have hto : "to".toList.map Char.toLower = "to".toList := by decide
    have hon : "on".toList.map Char.toLower = "on".toList := by decide
    simp only [parseAssertion, List.length_nil, Nat.zero_le, hto, hon, and_self, if_true, bind,
      Except.bind, dumpEffect_parsed, pure, Except.pure, List.head?_nil, Option.bind_none,
      rereadAssertion]
  · simp only [List.mem_cons, List.not_mem_nil, or_false]
    rintro piece (rfl | rfl | rfl | rfl | rfl | rfl)
    · exact dumpEffect_unspaced _
    · exact h.action
    · decide
    · exact hlocal
    · decide
    · exact hwritten
  · exact List.cons_ne_nil _ _

/-- The assertion as the claim of a policy: without an effect it allows. -/
def Assertion.plain (assertion : Assertion) : Assertion where
  role := assertion.role
  resource := assertion.resource
  action := assertion.action
  effect := some (assertion.effect.getD .allow)

/-- An assertion on a role of the domain, and on no resource of the domain that has a further
colon. -/
structure Assertion.Own (dn : Str) (assertion : Assertion) : Prop where
  role : ∃ rn, assertion.role = roleName dn rn
  resource : ∀ text, assertion.resource = dn ++ ':' :: text → ':' ∉ text

theorem prefix_colon_iff {dn other text : Str} (hdn : ':' ∉ dn) (hother : ':' ∉ other) :
    dn ++ [':'] <+: other ++ ':' :: text ↔ dn = other := by
  constructor
  · rintro ⟨rest, h⟩
    rw [List.append_assoc, List.singleton_append] at h
    exact (append_cons_inj_first hdn hother h).1
  · rintro rfl
    exact ⟨text, by simp⟩

theorem dumpResource_own (dn text : Str) : dumpResource dn (dn ++ ':' :: text) = text := by
  have hstarts : dn ++ [':'] <+: dn ++ ':' :: text := ⟨text, by simp⟩
  rw [dumpResource, if_pos hstarts, List.drop_append]
  simp

theorem rereadAssertion_plain_iff {dn : Str} {assertion : Assertion} (hdn : ':' ∉ dn)
    (h : AssertionFormed assertion) :
    rereadAssertion dn assertion = assertion.plain ↔ assertion.Own dn := by
  obtain ⟨roleDomain, rn, hrole, hroleDomain, hrn, -⟩ := h.role
  obtain ⟨resourceDomain, text, hresource, hresourceDomain, -, -⟩ := h.resource
  have hroleRead : (rereadAssertion dn assertion).role = roleName dn rn := by
    simp only [rereadAssertion, hrole, roleName, localName_role hroleDomain, qualified,
      if_neg hrn]
  have hresourceRead : (rereadAssertion dn assertion).resource = assertion.resource ↔
      (dn = resourceDomain → ':' ∉ text) := by
    by_cases hsame : dn = resourceDomain
    · subst hsame
      simp only [rereadAssertion, hresource, dumpResource_own, qualified, forall_const]
      constructor
      · intro hread hcolon
        rw [if_pos hcolon] at hread
        have := congrArg List.length hread
        simp at this
        omega
      · intro hcolon
        rw [if_neg hcolon]
        exact List.append_assoc dn [':'] text
    · have hstarts : ¬ dn ++ [':'] <+: assertion.resource := by
        rw [hresource, prefix_colon_iff hdn hresourceDomain]
        exact hsame
      have hcolon : ':' ∈ assertion.resource := by simp [hresource]
      simp only [rereadAssertion, dumpResource, if_neg hstarts, qualified, if_pos hcolon,
        hsame, false_implies]
  constructor
  · intro heq
    refine ⟨⟨rn, ?_⟩, ?_⟩
    · rw [← hroleRead, heq]
      rfl
    · intro other hother
      rw [hresource] at hother
      obtain ⟨hdomain, htext⟩ := append_cons_inj_first hresourceDomain hdn hother
      rw [← htext]
      exact hresourceRead.1 (by rw [heq]; rfl) hdomain.symm
  · rintro ⟨⟨other, hother⟩, hcolon⟩
    have hresources : (rereadAssertion dn assertion).resource = assertion.resource :=
      hresourceRead.2 fun hsame => hcolon text (by rw [hresource, hsame])
    have hroles : (rereadAssertion dn assertion).role = assertion.role := by
      rw [hroleRead, hother]
      rw [hrole, roleName, roleName, List.append_assoc, List.append_assoc] at hother
      obtain ⟨-, hnames⟩ := append_cons_inj_first hroleDomain hdn hother
      rw [List.append_cancel_left hnames]
    simp only [rereadAssertion] at hroles hresources
    simp only [rereadAssertion, Assertion.plain, hroles, hresources]

def policyName (dn pn : Str) : Str := dn ++ ":policy.".toList ++ pn

def adminPolicy (dn : Str) : Str := policyName dn "admin".toList

/-- The policies of a domain, each under its name. -/
structure PoliciesFormed (dn : Str) (policies : List Policy) : Prop where
  named : ∀ policy ∈ policies, ∃ pn, ':' ∉ pn ∧ policy.name = policyName dn pn
  distinct : (policies.map Policy.name).Nodup
  assertions : ∀ policy ∈ policies, ∀ assertion ∈ policy.assertions, AssertionFormed assertion

theorem policyDomain_own {dn pn : Str} {policy : Policy} (hpn : ':' ∉ pn)
    (hname : policy.name = policyName dn pn) : policyDomain policy = dn := by
  have hsplit : policy.name = dn ++ ':' :: ("policy.".toList ++ pn) := by
    rw [hname, policyName, List.append_assoc]
    rfl
  have hlast : ':' ∉ "policy.".toList ++ pn := by
    rw [List.mem_append, not_or]
    exact ⟨by decide, hpn⟩
  cases hindex : lastIndexOf ':' policy.name with
  | none =>
    refine absurd ?_ (notMem_of_lastIndexOf_eq_none hindex)
    rw [hsplit]
    exact List.mem_append_right _ List.mem_cons_self
  | some i =>
    obtain ⟨hcut, hrest⟩ := lastIndexOf_eq_some hindex
    rw [policyDomain, hindex, Option.getD_some]
    exact (append_cons_inj_last hrest hlast (hcut.symm.trans hsplit)).1

theorem localName_policy {dn : Str} (hdn : ':' ∉ dn) (pn : Str) :
    localName (policyName dn pn) ":policy.".toList = pn := by
  have hobj : ':' ∉ "policy.".toList := by decide
  rw [policyName, List.append_assoc]
  exact localName_own hdn hobj pn

theorem importAssertions_dumped (dn name : Str) {assertions : List Assertion}
    (hformed : ∀ assertion ∈ assertions, AssertionFormed assertion) :
    ∃ kept, importAssertions dn name
        (assertions.map fun assertion => .text (dumpAssertion dn assertion)) = .ok kept ∧
      (name ≠ "admin".toList → kept = assertions.map (rereadAssertion dn)) := by
  induction assertions with
  | nil => exact ⟨[], rfl, fun _ => rfl⟩
  | cons assertion assertions ih =>
    obtain ⟨hfirst, hrest⟩ := List.forall_mem_cons.1 hformed
    obtain ⟨kept, hkept, hregular⟩ := ih hrest
    by_cases hskip : name = "admin".toList ∧
        dumpAssertion dn assertion = "grant * to admin on *".toList
    · refine ⟨kept, ?_, fun hname => absurd hskip.1 hname⟩
      rw [List.map_cons, importAssertions]
      simp only [asString, bind, Except.bind, if_pos hskip, hkept]
    · refine ⟨rereadAssertion dn assertion :: kept, ?_, fun hname => ?_⟩
      · rw [List.map_cons, importAssertions]
        simp only [asString, bind, Except.bind, if_neg hskip, parseAssertion_dumped hfirst, hkept,
          pure, Except.pure]
      · rw [hregular hname, List.map_cons]

theorem dumpPolicy_name {policy : Policy} :
    entry (dumpPolicy policy) "name" = .text (localName policy.name ":policy.".toList) :=
  rfl

theorem dumpPolicy_assertions {policy : Policy} :
    (dumpPolicy policy).lookup "assertions" =
      some (.list (policy.assertions.map fun assertion =>
        .text (dumpAssertion (policyDomain policy) assertion))) := by
  simp only [dumpPolicy, List.lookup_append, lookup_dumpStringValue, lookup_dumpBoolValue,
    lookup_single]
  simp

variable {T : Type}

/-- What is put for a policy. -/
def sentPolicy (dn : Str) (policy : Policy) : Policy where
  name := policy.name
  assertions := policy.assertions.map (rereadAssertion dn)

def sentPolicies (dn : Str) (policy : Policy) : List (Request T) :=
  if policy.name = adminPolicy dn then [] else [.putPolicy (sentPolicy dn policy)]

theorem importPolicyOld_sent {dn : Str} {server : Server T} {policy : Policy} {pn : Str}
    (hdn : ':' ∉ dn) (hpn : ':' ∉ pn) (hname : policy.name = policyName dn pn)
    (hformed : ∀ assertion ∈ policy.assertions, AssertionFormed assertion)
    (hnew : server.requests.any (Request.createsPolicy policy.name) = false) :
    importPolicyOld dn server (.map (dumpPolicy policy)) =
      .ok (server.serve (sentPolicies dn policy)) := by
  have hlocal : localName policy.name ":policy.".toList = pn := by rw [hname, localName_policy hdn]
  obtain ⟨kept, hkept, hregular⟩ := importAssertions_dumped dn pn hformed
  have hadmin : policy.name = adminPolicy dn ↔ pn = "admin".toList := by
    rw [hname]
    exact ⟨List.append_cancel_left, fun hsame => by rw [hsame, adminPolicy]⟩
  by_cases hname' : pn = "admin".toList
  · subst hname'
    simp only [importPolicyOld, asMap, bind, Except.bind, dumpPolicy_name, asString, hlocal,
      dumpPolicy_assertions, asList, policyDomain_own hpn hname, hkept, ne_eq,
      not_true_eq_false, if_false, sentPolicies, hadmin, if_true, Server.serve_nil]
  · have hhas : server.hasPolicy dn pn = false := by
      rw [Server.hasPolicy, decide_eq_false hname', Bool.false_or]
      rw [hname] at hnew
      exact hnew
    simp only [importPolicyOld, asMap, bind, Except.bind, dumpPolicy_name, asString, hlocal,
      dumpPolicy_assertions, asList, policyDomain_own hpn hname, hkept, hname', ne_eq,
      not_false_eq_true, if_true, sentPolicies, hadmin, if_false, addPolicyWithAssertions, hhas,
      Bool.false_eq_true, hregular hname', sentPolicy]
    rw [hname]
    rfl

theorem sentPolicies_creates {dn name : Str} {policy : Policy} (h : policy.name ≠ name) :
    (sentPolicies dn policy : List (Request T)).any (Request.createsPolicy name) = false := by
  unfold sentPolicies
  split_ifs <;> simp [Request.createsPolicy, sentPolicy, h]

theorem importPoliciesOld_sent {dn : Str} {policies : List Policy} {server : Server T}
    (hdn : ':' ∉ dn) (hformed : PoliciesFormed dn policies)
    (hnew : ∀ policy ∈ policies,
      server.requests.any (Request.createsPolicy policy.name) = false) :
    importPoliciesOld dn server (policies.map fun policy => .map (dumpPolicy policy)) =
      .ok (server.serve (policies.flatMap (sentPolicies dn))) := by
  induction policies generalizing server with
  | nil => simp [importPoliciesOld, pure, Except.pure]
  | cons policy policies ih =>
    obtain ⟨hmissing, hdistinct⟩ := List.nodup_cons.1 hformed.distinct
    have hother : ∀ other ∈ policies, policy.name ≠ other.name := fun other hmem heq =>
      hmissing (heq ▸ List.mem_map_of_mem hmem)
    obtain ⟨pn, hpn, hname⟩ := hformed.named policy List.mem_cons_self
    have hfirst := importPolicyOld_sent hdn hpn hname
      (hformed.assertions policy List.mem_cons_self) (hnew policy List.mem_cons_self)
    have hrest : importPoliciesOld dn (server.serve (sentPolicies dn policy))
        (policies.map fun policy => .map (dumpPolicy policy)) =
        .ok ((server.serve (sentPolicies dn policy)).serve
          (policies.flatMap (sentPolicies dn))) := by
      refine ih ⟨fun other hmem => hformed.named other (List.mem_cons_of_mem _ hmem), hdistinct,
        fun other hmem => hformed.assertions other (List.mem_cons_of_mem _ hmem)⟩ ?_
      intro other hmem
      rw [Server.serve, List.any_append, hnew other (List.mem_cons_of_mem _ hmem),
        sentPolicies_creates (hother other hmem), Bool.or_self]
    rw [Server.serve_serve] at hrest
    simp only [importPoliciesOld, List.map_cons, List.foldlM_cons, bind, Except.bind, hfirst,
      List.flatMap_cons]
    exact hrest

end Policies

end Athenz.Zmscli
