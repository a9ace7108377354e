import Athenz.JavaToken
import Athenz.Lib.Fields

namespace Athenz.Java
open Lib.Text Lib.Decimal Lib.Result
set_option autoImplicit true

inductive RoleKey where
  | salt | complete | domain | expiryTime | host | ip | keyId | principal | roles | timestamp
  | proxyUser | version
deriving DecidableEq

def RoleKey.ofStr (key : Str) : Option RoleKey :=
  List.lookup key [("a", .salt), ("c", .complete), ("d", .domain), ("e", .expiryTime),
    ("h", .host), ("i", .ip), ("k", .keyId), ("p", .principal), ("r", .roles), ("t", .timestamp),
    ("proxy", .proxyUser), ("v", .version)]

structure RoleToken extends Token where
  roles : Option (List Str) := none
  principal : Option Str := none
  proxyUser : Option Str := none
  domainCompleteRoleSet : Bool := false

/-- The token under construction, with the local `roleNames` of the constructor. -/
structure RoleScan extends RoleToken where
  roleNames : Option Str := none

def parseInt [DigitRules] (s : Str) : Except Str Int :=
  match parseInteger 31 s with
  | some n => .ok n
  | none => .error ("For input string: \"" ++ s ++ "\"")

namespace RoleScan

variable [DigitRules]

def assign (scan : RoleScan) (key : RoleKey) (value : Str) : Except Str RoleScan :=
  match key with
  | .salt => .ok { scan with salt := some value }
  | .complete => (parseInt value).map fun n =>
    if n = 1 then { scan with domainCompleteRoleSet := true } else scan
  | .domain => .ok { scan with domain := some value }
  | .expiryTime => (parseLong value).map fun n => { scan with expiryTime := n }
  | .host => .ok { scan with host := some value }
  | .ip => .ok { scan with ip := some value }
  | .keyId => .ok { scan with keyId := value }
  | .principal => .ok { scan with principal := some value }
  | .roles => .ok { scan with roleNames := some value }
  | .timestamp => (parseLong value).map fun n => { scan with timestamp := n }
  | .proxyUser => .ok { scan with proxyUser := some value }
  | .version => .ok { scan with version := some value }

def parseItem (scan : RoleScan) (item : Str) : Except Str RoleScan :=
  match splitTrim '=' item with
  | [key, value] =>
    match RoleKey.ofStr key with
    | some key => scan.assign key value
    | none => .ok scan
  | _ => .ok scan

def parseItems (scan : RoleScan) (text : Str) : Except Str RoleScan :=
  (splitTrim ';' text).foldlM parseItem scan

theorem parseItem_frame {scan : RoleScan} (h : parseItem scan item = .ok scan') :
    scan'.unsignedToken = scan.unsignedToken ∧ scan'.signature = scan.signature := by
  unfold parseItem at h
  split at h
  · split at h
    · rename_i key _
      cases key with
      | complete =>
        obtain ⟨n, _, rfl⟩ := map_eq_ok.1 h
        split <;> exact ⟨rfl, rfl⟩
      | expiryTime | timestamp =>
        obtain ⟨n, _, rfl⟩ := map_eq_ok.1 h
        exact ⟨rfl, rfl⟩
      | _ =>
        cases h
        exact ⟨rfl, rfl⟩
    · cases h
      exact ⟨rfl, rfl⟩
  · cases h
    exact ⟨rfl, rfl⟩

theorem parseItems_frame {scan : RoleScan} (h : parseItems scan text = .ok scan') :
    scan'.unsignedToken = scan.unsignedToken ∧ scan'.signature = scan.signature := by
  refine foldlM_invariant (P := fun s => s.unsignedToken = scan.unsignedToken ∧
    s.signature = scan.signature) (fun _ _ _ hstep hkeep => ?_) h ⟨rfl, rfl⟩
  obtain ⟨hunsigned, hsignature⟩ := parseItem_frame hstep
  rw [hunsigned, hsignature]
  exact hkeep

end RoleScan

/-- The constructor on a signed token. -/
def RoleToken.ofSignedToken [DigitRules] (signedToken : Str) : Except Str RoleToken := do
  refuse (signedToken = []) "Input String signedToken must not be empty"
  let idx := indexOf ";s=" signedToken
  let scan ← RoleScan.parseItems
    { unsignedToken := idx.map signedToken.take
      signature := idx.map fun i => signedToken.drop (i + 3) }
    ((idx.map signedToken.take).getD signedToken)
  refuse (scan.domain.getD [] = []) "SignedToken does not contain required domain component"
  refuse (scan.roleNames.getD [] = []) "SignedToken does not contain required roles component"
  return { scan.toRoleToken with
    roles := some (splitTrim ',' (scan.roleNames.getD []))
    signedToken := some signedToken }

theorem RoleToken.ofSignedToken_ok [DigitRules] {token : RoleToken} :
    RoleToken.ofSignedToken t = .ok token ↔ t ≠ [] ∧
      ∃ scan, RoleScan.parseItems
          { unsignedToken := (indexOf ";s=" t).map t.take
            signature := (indexOf ";s=" t).map fun i => t.drop (i + 3) }
          (((indexOf ";s=" t).map t.take).getD t) = .ok scan ∧
        scan.domain.getD [] ≠ [] ∧ scan.roleNames.getD [] ≠ [] ∧
        { scan.toRoleToken with
          roles := some (splitTrim ',' (scan.roleNames.getD []))
          signedToken := some t } = token := by
  simp only [RoleToken.ofSignedToken, bind_eq_ok, refuse_eq_ok, exists_const, pure_eq_ok, ne_eq]

section Builders

structure RoleToken.Builder where
  version : Str
  domain : Str
  roles : List Str
  salt : Str
  principal : Option Str := none
  proxyUser : Option Str := none
  domainCompleteRoleSet : Bool := false
  host : Option Str := none
  ip : Option Str := none
  keyId : Str := "0"
  expirationWindow : Long := .ofInt 3600
  issueTime : Long := .ofInt 0
  required : version ≠ [] ∧ domain ≠ [] ∧ roles ≠ []

def RoleToken.Builder.unsignedToken (builder : Builder) (times : Long × Long) : Str :=
  "v=" ++ builder.version ++ ";d=" ++ builder.domain ++ ";r=" ++ [','].intercalate builder.roles ++
    (if builder.domainCompleteRoleSet then ";c=1" else "") ++
    appendOptional "p" builder.principal ++ appendOptional "h" builder.host ++
    appendOptional "proxy" builder.proxyUser ++ ";a=" ++ builder.salt ++
    ";t=" ++ showLong times.1.1 ++ ";e=" ++ showLong times.2.1 ++ ";k=" ++ builder.keyId ++
    appendOptional "i" builder.ip

def RoleToken.Builder.build (builder : Builder) (now : Long) : RoleToken where
  version := builder.version
  domain := builder.domain
  roles := builder.roles
  host := builder.host
  salt := builder.salt
  keyId := builder.keyId
  ip := builder.ip
  principal := builder.principal
  proxyUser := builder.proxyUser
  domainCompleteRoleSet := builder.domainCompleteRoleSet
  timestamp := (setTimeStamp builder.issueTime builder.expirationWindow now).1.1
  expiryTime := (setTimeStamp builder.issueTime builder.expirationWindow now).2.1
  unsignedToken :=
    builder.unsignedToken (setTimeStamp builder.issueTime builder.expirationWindow now)

end Builders

end Athenz.Java
