import RaylsSuite.Common.WalletFactory
import RaylsSuite.Config.EnvConfig
import RaylsSuite.Foundation.Authority

/-! # The roles that a setup grants

The setup of a test grants roles on the chains of the nodes and of the hub, and
so do the setups of the tests in other processes at the same time. A role is
granted by a wallet that may only just have got the role it needs for that.
-/

namespace RaylsSuite.Entities

open Foundation Common Config

inductive RoleName where
  | ADMIN
  | PRIVACY_NODE_OPERATOR
  | BANK_EMPLOYEE
  | ENDPOINT_SENDER
  | RESOURCE_REGISTRAR
  | PRIVATE_NETWORK_OPERATOR
  | COMPLIANCE_OFFICER
  | other (name : String)
deriving DecidableEq, Repr

/-- The role whose holders may grant a role. -/
def RoleName.admin : RoleName → RoleName
  | .BANK_EMPLOYEE => .PRIVACY_NODE_OPERATOR
  | .COMPLIANCE_OFFICER => .PRIVATE_NETWORK_OPERATOR
  | _ => .ADMIN

inductive Grantee where
  | wallet (wallet : Wallet)
  | contract (address : String)
deriving DecidableEq, Repr

/-- What an access manager of a chain records. -/
inductive AccessFact where
  | hasRole (chain : String) (role : RoleName) (account : Grantee)
  | functionAllowedRoles (chain target : String) (selectors : List String) (roles : List RoleName)
deriving DecidableEq, Repr

/-- The fact that lets a wallet add a fact. -/
def adminFact (signer : Wallet) : AccessFact → AccessFact
  | .hasRole chain role _ => .hasRole chain role.admin (.wallet signer)
  | .functionAllowedRoles chain _ _ _ => .hasRole chain .ADMIN (.wallet signer)

/-- The access managers of all chains. -/
abbrev AccessManagers (World : Type) : Type := FactLedger World AccessFact Wallet

abbrev AccessGrant : Type := FactGrant AccessFact Wallet

/-- `if (hasRole) return;`, and `grantRole` from the signer otherwise. -/
def ensureRole (chain : String) (role : RoleName) (signer : Wallet) (account : Grantee) :
    AccessGrant :=
  ⟨signer, .hasRole chain role account, true⟩

structure NodeWallets where
  node : String
  adminWallet : Wallet
  operatorWallet : Wallet
  bankEmployeeWallet : Wallet
deriving DecidableEq, Repr

structure HubWallets extends NodeWallets where
  complianceWallet : Wallet
  tokenRegistryAddress : String
deriving DecidableEq, Repr

namespace NodeWallets

variable (node : NodeWallets)

def grantOperatorRole : List AccessGrant :=
  [ensureRole node.node .PRIVACY_NODE_OPERATOR node.adminWallet (.wallet node.operatorWallet)]

def grantBankEmployeeRole : List AccessGrant :=
  [ensureRole node.node .BANK_EMPLOYEE node.operatorWallet (.wallet node.bankEmployeeWallet)]

def grantEndpointSender (tokenAddresses : List String) : List AccessGrant :=
  tokenAddresses.map fun addr =>
    ensureRole node.node .ENDPOINT_SENDER node.adminWallet (.contract addr)

def grantResourceRegistrar (addresses : List String) : List AccessGrant :=
  addresses.map fun addr =>
    ensureRole node.node .RESOURCE_REGISTRAR node.adminWallet (.contract addr)

/-- The grant to the fresh wallet of `makeRoleHolder`, which nothing is known of. -/
def makeRoleHolder (roleName : RoleName) (granter wallet : Wallet) : List AccessGrant :=
  [⟨granter, .hasRole node.node roleName (.wallet wallet), false⟩]

end NodeWallets

namespace HubWallets

variable (hub : HubWallets)

def grantNetworkOperatorRole : List AccessGrant :=
  [ensureRole hub.node .PRIVATE_NETWORK_OPERATOR hub.adminWallet (.wallet hub.operatorWallet)]

/-- The mapping of the two selectors is sent whether or not the role was held. -/
def grantComplianceRole : List AccessGrant :=
  ensureRole hub.node .COMPLIANCE_OFFICER hub.operatorWallet (.wallet hub.complianceWallet) ::
    if hub.tokenRegistryAddress ≠ "" ∧ hub.tokenRegistryAddress ≠ ZERO_ADDRESS then
      [⟨hub.adminWallet, .functionAllowedRoles hub.node hub.tokenRegistryAddress
        ["freezeToken", "unfreezeToken"] [.COMPLIANCE_OFFICER], false⟩]
    else []

end HubWallets

/-- A call that grants roles. The first two are the loops of `initializePrivacyNodes`, once for
each node, and of `initializePrivacyNodesAndPnh`. -/
inductive RoleCall where
  | initializePrivacyNode (node : NodeWallets)
  | initializePnh (hub : HubWallets)
  | grantEndpointSender (node : NodeWallets) (tokenAddresses : List String)
  | grantResourceRegistrar (node : NodeWallets) (addresses : List String)
  | makeRoleHolder (node : NodeWallets) (roleName : RoleName) (granter wallet : Wallet)
deriving DecidableEq, Repr

def RoleCall.program : RoleCall → List AccessGrant
  | .initializePrivacyNode node => node.grantOperatorRole ++ node.grantBankEmployeeRole
  | .initializePnh hub => hub.grantNetworkOperatorRole ++ hub.grantComplianceRole
  | .grantEndpointSender node tokenAddresses => node.grantEndpointSender tokenAddresses
  | .grantResourceRegistrar node addresses => node.grantResourceRegistrar addresses
  | .makeRoleHolder node roleName granter wallet => node.makeRoleHolder roleName granter wallet

/-- What the caller has to have: ADMIN for the admin wallet, or the role's admin for the granter
that it names. -/
def RoleCall.credential : RoleCall → AccessFact
  | .initializePrivacyNode node => .hasRole node.node .ADMIN (.wallet node.adminWallet)
  | .initializePnh hub => .hasRole hub.node .ADMIN (.wallet hub.adminWallet)
  | .grantEndpointSender node _ | .grantResourceRegistrar node _ =>
      .hasRole node.node .ADMIN (.wallet node.adminWallet)
  | .makeRoleHolder node roleName granter _ =>
      .hasRole node.node roleName.admin (.wallet granter)

/-- The roles that the call is to leave in place. -/
def RoleCall.roles : RoleCall → List AccessFact
  | .initializePrivacyNode node =>
      [.hasRole node.node .PRIVACY_NODE_OPERATOR (.wallet node.operatorWallet),
        .hasRole node.node .BANK_EMPLOYEE (.wallet node.bankEmployeeWallet)]
  | .initializePnh hub =>
      [.hasRole hub.node .PRIVATE_NETWORK_OPERATOR (.wallet hub.operatorWallet),
        .hasRole hub.node .COMPLIANCE_OFFICER (.wallet hub.complianceWallet)]
  | .grantEndpointSender node tokenAddresses =>
      tokenAddresses.map fun addr => .hasRole node.node .ENDPOINT_SENDER (.contract addr)
  | .grantResourceRegistrar node addresses =>
      addresses.map fun addr => .hasRole node.node .RESOURCE_REGISTRAR (.contract addr)
  | .makeRoleHolder node roleName _ wallet => [.hasRole node.node roleName (.wallet wallet)]

variable {World : Type} {managers : AccessManagers World} {before : World} {calls : List RoleCall}
  {state : GrantState World AccessFact Wallet}

/-- Any number of calls that were made, by any number of processes. -/
def startRoleCalls (before : World) (calls : List RoleCall) :
    GrantState World AccessFact Wallet :=
  .start before (calls.map RoleCall.program)

/-! ## One call -/

/-- Grants that all need the same fact, which is there. -/
theorem warranted_map {known : AccessFact → Prop} {credential : AccessFact}
    (hcredential : known credential) (addresses : List String) (grant : String → AccessGrant)
    (hgrant : ∀ addr, adminFact (grant addr).signer (grant addr).fact = credential) :
    Warranted adminFact known (addresses.map grant) := by
  induction addresses generalizing known with
  | nil => trivial
  | cons addr rest ih => exact ⟨hgrant addr ▸ hcredential, ih (.inl hcredential)⟩

/-- With its credential each grant of a call has its warrant in time. -/
theorem RoleCall.warranted (call : RoleCall) {known : AccessFact → Prop}
    (hcredential : known call.credential) : Warranted adminFact known call.program := by
  cases call with
  | initializePrivacyNode node => exact ⟨hcredential, .inr rfl, trivial⟩
  | initializePnh hub =>
      refine ⟨hcredential, .inr rfl, ?_⟩
      split
      · exact ⟨.inl (.inl hcredential), trivial⟩
      · trivial
  | grantEndpointSender node tokenAddresses =>
      exact warranted_map hcredential tokenAddresses _ fun _ => rfl
  | grantResourceRegistrar node addresses =>
      exact warranted_map hcredential addresses _ fun _ => rfl
  | makeRoleHolder node roleName granter wallet => exact ⟨hcredential, trivial⟩

/-- The roles that a call's grants add are those it is to leave in place. -/
theorem RoleCall.hasRole_mem_program (call : RoleCall) {chain : String} {role : RoleName}
    {account : Grantee} :
    (∃ grant ∈ call.program, grant.fact = .hasRole chain role account) ↔
      .hasRole chain role account ∈ call.roles := by
  cases call with
  | initializePrivacyNode node =>
      simp [program, roles, NodeWallets.grantOperatorRole, NodeWallets.grantBankEmployeeRole,
        ensureRole, eq_comm]
  | initializePnh hub =>
      simp only [program, roles, HubWallets.grantNetworkOperatorRole,
        HubWallets.grantComplianceRole, ensureRole]
      split <;> simp [eq_comm]
  | grantEndpointSender node tokenAddresses =>
      simp [program, roles, NodeWallets.grantEndpointSender, ensureRole]
  | grantResourceRegistrar node addresses =>
      simp [program, roles, NodeWallets.grantResourceRegistrar, ensureRole]
  | makeRoleHolder node roleName granter wallet =>
      simp [program, roles, NodeWallets.makeRoleHolder, eq_comm]

theorem RoleCall.roles_hasRole (call : RoleCall) {fact : AccessFact} (hfact : fact ∈ call.roles) :
    ∃ chain role account, fact = .hasRole chain role account := by
  cases call with
  | initializePrivacyNode node | initializePnh hub =>
      simp only [roles, List.mem_cons, List.not_mem_nil, or_false] at hfact
      rcases hfact with rfl | rfl <;> exact ⟨_, _, _, rfl⟩
  | grantEndpointSender node addresses | grantResourceRegistrar node addresses =>
      obtain ⟨addr, _, rfl⟩ := List.mem_map.mp hfact
      exact ⟨_, _, _, rfl⟩
  | makeRoleHolder node roleName granter wallet =>
      exact ⟨_, _, _, List.mem_singleton.mp hfact⟩

/-! ## Calls side by side -/

/-- The role is held in the world. -/
def Holds (managers : AccessManagers World) (world : World) (fact : AccessFact) : Prop :=
  managers.holds world fact = true

instance (world : World) (fact : AccessFact) : Decidable (Holds managers world fact) :=
  inferInstanceAs (Decidable (_ = true))

/-- What the calls promise in every state that they lead to. -/
structure RolesInPlace (managers : AccessManagers World) (before : World) (calls : List RoleCall)
    (state : GrantState World AccessFact Wallet) : Prop where
  /-- No grant that was sent is refused. -/
  accepted : state.reverted = []
  /-- A call that has returned leaves its roles in place. -/
  returned : ∀ (position : Nat) (call : RoleCall) (party : Grantor AccessFact Wallet),
    calls[position]? = some call → state.parties[position]? = some party → party.returned →
    ∀ fact ∈ call.roles, Holds managers state.world fact
  /-- Every call has a state, and one that has not thrown can still return. -/
  canReturn : ∀ (position : Nat) (call : RoleCall), calls[position]? = some call →
    ∃ party : Grantor AccessFact Wallet, state.parties[position]? = some party ∧
      (party.stage ≠ .threw → state.CanReturn managers position)
  /-- No role is lost. -/
  kept : ∀ fact, Holds managers before fact → Holds managers state.world fact
  /-- No role is granted that no call asks for. -/
  added : ∀ chain role account, Holds managers state.world (.hasRole chain role account) →
    Holds managers before (.hasRole chain role account) ∨
      ∃ call ∈ calls, .hasRole chain role account ∈ call.roles

/-- Every state of the calls' programs satisfies the grants' invariant. -/
theorem startRoleCalls_inv (hlawful : managers.Lawful adminFact)
    (hcredentials : ∀ call ∈ calls, Holds managers before call.credential)
    (hreach : (grantMachine managers).Reaches (startRoleCalls before calls) state) :
    state.Inv managers adminFact before (calls.map RoleCall.program) := by
  apply GrantState.Inv.of_reaches hlawful _ hreach
  intro program hprogram
  obtain ⟨call, hcall, rfl⟩ := List.mem_map.mp hprogram
  exact call.warranted (hcredentials call hcall)

/-- Setups that grant their roles at the same time never have a grant refused, and each that
returns has its roles, if the wallets that they start from have what they need. -/
theorem roleCalls_inPlace (managers : AccessManagers World) (hlawful : managers.Lawful adminFact)
    (before : World) (calls : List RoleCall)
    (hcredentials : ∀ call ∈ calls, Holds managers before call.credential)
    {state : GrantState World AccessFact Wallet}
    (hreach : (grantMachine managers).Reaches (startRoleCalls before calls) state) :
    RolesInPlace managers before calls state := by
  have hinv := startRoleCalls_inv hlawful hcredentials hreach
  refine ⟨hinv.accepted, ?_, ?_, hinv.grows, ?_⟩
  · intro position call party hcall hparty hreturned fact hfact
    obtain ⟨chain, role, account, rfl⟩ := call.roles_hasRole hfact
    obtain ⟨grant, hgrant, hsame⟩ := call.hasRole_mem_program.mpr hfact
    have hprogram : (calls.map RoleCall.program)[position]? = some call.program := by
      rw [List.getElem?_map, hcall]
      rfl
    exact hsame ▸ hinv.returned hparty hprogram hreturned grant hgrant
  · intro position call hcall
    have hparty : (state.parties.map Grantor.program)[position]? = some call.program := by
      rw [hinv.given, List.getElem?_map, hcall]
      rfl
    rw [List.getElem?_map] at hparty
    obtain ⟨party, hparty, _⟩ := Option.map_eq_some_iff.mp hparty
    exact ⟨party, hparty, hinv.canReturn hlawful hparty⟩
  · intro chain role account hheld
    rcases hinv.added _ hheld with hbefore | ⟨program, hprogram, hgrant⟩
    · exact .inl hbefore
    · obtain ⟨call, hcall, rfl⟩ := List.mem_map.mp hprogram
      exact .inr ⟨call, hcall, call.hasRole_mem_program.mp hgrant⟩

/-- The access managers of chains on which the system key is ADMIN. -/
def seedWorld (chains : List String) : List AccessFact :=
  chains.map fun chain => .hasRole chain .ADMIN (.wallet .system)

/-- Two setups of node A at the same time, with an operator each and one bank employee. -/
def twoSetups (first second bankEmployee : RandomChildIndex) : List RoleCall :=
  [.initializePrivacyNode
      ⟨"A", .system, .child (createUserOperator first), .child (createUserOperator bankEmployee)⟩,
    .initializePrivacyNode
      ⟨"A", .system, .child (createUserOperator second), .child (createUserOperator bankEmployee)⟩]

/-- Both send the grant of the operator before either is mined. -/
def interleavedGrants : List GrantLabel :=
  [.look 0, .look 1, .mine 1, .confirm 1, .look 1, .mine 0, .confirm 0, .look 0, .mine 0,
    .confirm 1, .mine 0, .confirm 0]

theorem roleCalls_inPlace_twoSetups :
    ∃ state, (grantMachine (.listed adminFact)).Reaches
        (startRoleCalls (seedWorld ["A"]) (twoSetups 1 3 2)) state ∧
      state.mined.length = 4 ∧
      RolesInPlace (.listed adminFact) (seedWorld ["A"]) (twoSetups 1 3 2) state := by
  refine ⟨_, ⟨interleavedGrants, rfl⟩, rfl, roleCalls_inPlace _ (FactLedger.listed_lawful adminFact)
    (seedWorld ["A"]) (twoSetups 1 3 2) ?_ ⟨interleavedGrants, rfl⟩⟩
  intro call hcall
  simp only [twoSetups, List.mem_cons, List.not_mem_nil, or_false] at hcall
  rcases hcall with rfl | rfl <;> decide

/-! ## Over roles that are in place -/

/-- The call checks before each of its grants of a role. -/
def RoleCall.Checks : RoleCall → Prop
  | .makeRoleHolder _ _ _ _ => False
  | _ => True

/-- The mapping of the selectors on the hub. -/
def IsMapping (grant : AccessGrant) : Prop :=
  ∃ chain target selectors roles, grant.fact = .functionAllowedRoles chain target selectors roles

/-- A grant of a call that checks is a checked one of its roles or the mapping. -/
theorem RoleCall.grant_cases (call : RoleCall) (hchecks : call.Checks) {grant : AccessGrant}
    (hgrant : grant ∈ call.program) :
    IsMapping grant ∨ grant.checked = true ∧ grant.fact ∈ call.roles := by
  cases call with
  | initializePrivacyNode node =>
      simp only [program, NodeWallets.grantOperatorRole, NodeWallets.grantBankEmployeeRole,
        List.cons_append, List.nil_append, List.mem_cons, List.not_mem_nil, or_false] at hgrant
      rcases hgrant with rfl | rfl <;> simp [ensureRole, roles]
  | initializePnh hub =>
      simp only [program, HubWallets.grantNetworkOperatorRole, HubWallets.grantComplianceRole,
        List.cons_append, List.nil_append, List.mem_cons] at hgrant
      rcases hgrant with rfl | rfl | hgrant
      · simp [ensureRole, roles]
      · simp [ensureRole, roles]
      · split at hgrant
        · obtain rfl := List.mem_singleton.mp hgrant
          exact .inl ⟨_, _, _, _, rfl⟩
        · exact absurd hgrant List.not_mem_nil
  | grantEndpointSender node addresses | grantResourceRegistrar node addresses =>
      obtain ⟨addr, haddr, rfl⟩ := List.mem_map.mp hgrant
      exact .inr ⟨rfl, List.mem_map_of_mem haddr⟩
  | makeRoleHolder node roleName granter wallet => exact hchecks.elim

/-- Where all the roles are in place, setups send no transaction that grants a role: whatever
is mined, is refused or waits in the mempool is a mapping of selectors on the hub. -/
theorem roleCalls_quiet (managers : AccessManagers World) (hlawful : managers.Lawful adminFact)
    (before : World) (calls : List RoleCall) (hchecks : ∀ call ∈ calls, call.Checks)
    (hroles : ∀ call ∈ calls, ∀ fact ∈ call.roles, Holds managers before fact)
    {state : GrantState World AccessFact Wallet}
    (hreach : (grantMachine managers).Reaches (startRoleCalls before calls) state) :
    (∀ entry ∈ state.mempool, IsMapping entry.2) ∧ (∀ grant ∈ state.mined, IsMapping grant) ∧
      ∀ grant ∈ state.reverted, IsMapping grant := by
  have hquiet : state.Quiet managers IsMapping := by
    apply GrantState.Quiet.of_reaches hlawful _ hreach
    intro program hprogram grant hgrant
    obtain ⟨call, hcall, rfl⟩ := List.mem_map.mp hprogram
    rcases call.grant_cases (hchecks call hcall) hgrant with hmapping | ⟨hchecked, hfact⟩
    · exact .inl hmapping
    · exact .inr ⟨hchecked, hroles call hcall grant.fact hfact⟩
  exact ⟨hquiet.pending, hquiet.mined, hquiet.reverted⟩

/-- A second setup with the wallets of the first one, when those have their roles. -/
theorem roleCalls_quiet_hub :
    let hub : HubWallets := ⟨⟨"PNH", .system, .child (createUserOperator 1),
      .child (createUserOperator 2)⟩, .child (createUserOperator 3), "0x7e91"⟩
    let before := seedWorld ["PNH"] ++ (RoleCall.initializePnh hub).roles
    ∃ state, (grantMachine (.listed adminFact)).Reaches
        (startRoleCalls before [.initializePnh hub]) state ∧ state.mined.length = 1 ∧
      (∀ entry ∈ state.mempool, IsMapping entry.2) ∧ (∀ grant ∈ state.mined, IsMapping grant) ∧
      ∀ grant ∈ state.reverted, IsMapping grant := by
  intro hub before
  refine ⟨_, ⟨[.look 0, .look 0, .look 0, .mine 0, .confirm 0], rfl⟩, rfl,
    roleCalls_quiet _ (FactLedger.listed_lawful adminFact) before [.initializePnh hub] ?_ ?_
      ⟨[.look 0, .look 0, .look 0, .mine 0, .confirm 0], rfl⟩⟩
  · intro call hcall
    obtain rfl := List.mem_singleton.mp hcall
    trivial
  · intro call hcall fact hfact
    obtain rfl := List.mem_singleton.mp hcall
    exact decide_eq_true (List.mem_append_right _ hfact)

end RaylsSuite.Entities
