import HeyeeAgent.Tools.Registry

/-! # The registration of remote tools

The loop looks for a conflict and registers in the same turn, so where a later tool conflicts the
earlier ones stay registered, with handlers of a client that is then closed. A client is known by its
number, in the order in which the process makes them.
-/

namespace HeyeeAgent.Mcp

open Python Tools

structure McpToolDefinition where
  name : Str
  description : Str
  inputSchema : Dict Str Object

/-- What a call of a tool runs: a function of the process, or a remote tool of a client -/
inductive ToolHandler (Function : Type*) where
  | own (function : Function)
  | remote (client : ℕ) (remoteName : Str)

structure BoundTool (Function : Type*) extends ToolDefinition where
  handler : ToolHandler Function

abbrev BoundRegistry (Function : Type*) := Dict Str (BoundTool Function)

/-- A process with its registry and the number of the clients it has made -/
structure Process (Function : Type*) where
  registry : BoundRegistry Function
  clients : ℕ
  known : ∀ entry ∈ registry, ∀ client name, entry.2.handler = .remote client name → client < clients

structure McpSettings where
  mcpEnabled : Bool
  mcpServerUrl : Str
  mcpToolPrefix : Str
  mcpFailFast : Bool

/-- What the start-up leaves of the client: the state of the app, and what was closed -/
structure Startup (Function : Type*) where
  registry : BoundRegistry Function
  mcpClient : Option ℕ := none
  mcpTools : List Str := []
  closed : List ℕ := []
  raised : Bool := false

variable {Function : Type*}

section Registration

variable (client : ℕ) (namePrefix : Str)

def localName (remoteTool : McpToolDefinition) : Str := namePrefix ++ remoteTool.name

/-- The definition of a remote tool, with the handler of `_build_handler` -/
def boundTool (remoteTool : McpToolDefinition) : BoundTool Function where
  name := localName namePrefix remoteTool
  description := .lit "Remote MCP tool: " ++ remoteTool.description
  inputSchema := remoteTool.inputSchema
  handler := .remote client remoteTool.name

def conflictMessage (name : Str) : Str :=
  .lit "MCP tool name conflicts with an existing local tool: " ++ name

/-- The loop of `register_mcp_tools` over the tools that are left -/
def registerAll (registry : BoundRegistry Function) :
    List McpToolDefinition → Except Str (List Str) × BoundRegistry Function
  | [] => (.ok [], registry)
  | remoteTool :: later =>
    let name := localName namePrefix remoteTool
    if (Dict.get registry name).isSome then (.error (conflictMessage name), registry)
    else
      let (registered, registry) :=
        registerAll (Dict.set registry name (boundTool client namePrefix remoteTool)) later
      (registered.map (name :: ·), registry)

/-- `register_mcp_tools` with what the client lists, or else the error that it raises -/
def registerMcpTools (listed : Except Str (List McpToolDefinition))
    (registry : BoundRegistry Function) : Except Str (List Str) × BoundRegistry Function :=
  match listed with
  | .ok remote => registerAll client namePrefix registry remote
  | .error message => (.error message, registry)

end Registration

/-- The name of the server for the log; none where the value has no `get`. -/
def serverName (serverInfo : Dict Str Object) : Option Object :=
  match Dict.get serverInfo (.lit "serverInfo") with
  | none => some (.str (.lit "unknown"))
  | some (.dict server) => some ((Dict.get server (.lit "name")).getD (.str (.lit "unknown")))
  | some _ => none

/-- The MCP part of `lifespan`, with what the new client gives to `initialize` and `list_tools` -/
def setUpMcp (process : Process Function) (settings : McpSettings)
    (started : Except Str (Dict Str Object)) (listed : Except Str (List McpToolDefinition)) :
    Startup Function :=
  let client := process.clients
  if !settings.mcpEnabled || settings.mcpServerUrl = [] then { registry := process.registry }
  else
    match started with
    | .error _ =>
      { registry := process.registry, closed := [client], raised := settings.mcpFailFast }
    | .ok serverInfo =>
      match registerMcpTools client settings.mcpToolPrefix listed process.registry with
      | (.error _, registry) => { registry, closed := [client], raised := settings.mcpFailFast }
      | (.ok registered, registry) =>
        -- the state of the app is set before the name of the server is read
        if (serverName serverInfo).isSome then
          { registry, mcpClient := some client, mcpTools := registered }
        else
          { registry, mcpClient := some client, mcpTools := registered, closed := [client],
            raised := settings.mcpFailFast }

/-- The handler of the tool calls the client. -/
def BoundTool.Calls (tool : BoundTool Function) (client : ℕ) : Prop :=
  ∃ name, tool.handler = .remote client name

section Conflicts

variable (namePrefix : Str) (registry : BoundRegistry Function) (remote : List McpToolDefinition)

/-- The names are different and not in the registry. -/
def Unconflicted : Prop :=
  (remote.map (localName namePrefix)).Nodup ∧
    ∀ tool ∈ remote, Dict.get registry (localName namePrefix tool) = none

/-- The name of the first tool is in the registry. -/
def FirstTaken : Prop :=
  ∃ tool ∈ remote.head?, (Dict.get registry (localName namePrefix tool)).isSome = true

end Conflicts

section Loop

variable {client : ℕ} {namePrefix : Str} {registry : BoundRegistry Function}
  {remote : List McpToolDefinition}

/-- The entry of a remote tool -/
def entryOf (client : ℕ) (namePrefix : Str) (remoteTool : McpToolDefinition) :
    Str × BoundTool Function :=
  (localName namePrefix remoteTool, boundTool client namePrefix remoteTool)

theorem unconflicted_iff : Unconflicted namePrefix registry remote ↔
    (remote.map (localName namePrefix)).Nodup ∧
      ∀ name ∈ remote.map (localName namePrefix), name ∉ registry.keys := by
  rw [Unconflicted, List.forall_mem_map]
  exact and_congr_right fun _ => forall₂_congr fun _ _ => Dict.get_eq_none_iff

/-- A tool without a conflict leaves to the later ones what they have with it in the registry. -/
theorem unconflicted_cons_iff {tool : McpToolDefinition}
    (free : Dict.get registry (localName namePrefix tool) = none) :
    Unconflicted namePrefix registry (tool :: remote) ↔
      Unconflicted namePrefix (registry ++ [entryOf client namePrefix tool]) remote := by
  have absent := Dict.get_eq_none_iff.mp free
  rw [unconflicted_iff, unconflicted_iff, List.map_cons, List.nodup_cons, List.forall_mem_cons,
    Dict.keys, Dict.keys, List.map_append, List.map_singleton, entryOf]
  simp only [List.mem_append, List.mem_singleton, not_or]
  constructor
  · rintro ⟨⟨new, distinct⟩, -, later⟩
    exact ⟨distinct, fun name listed => ⟨later name listed, fun same => new (same ▸ listed)⟩⟩
  · rintro ⟨distinct, later⟩
    exact ⟨⟨fun listed => (later _ listed).2 rfl, distinct⟩, absent, fun name listed =>
      (later name listed).1⟩

theorem registerAll_cons {tool : McpToolDefinition}
    (free : Dict.get registry (localName namePrefix tool) = none) :
    registerAll client namePrefix registry (tool :: remote) =
      ((registerAll client namePrefix (registry ++ [entryOf client namePrefix tool]) remote).1.map
        (localName namePrefix tool :: ·),
      (registerAll client namePrefix (registry ++ [entryOf client namePrefix tool]) remote).2) := by
  rw [registerAll, free, Dict.set_of_get_none free]
  rfl

/-- Without a conflict every tool gets an entry at the end. -/
theorem registerAll_of_unconflicted (free : Unconflicted namePrefix registry remote) :
    registerAll client namePrefix registry remote =
      (.ok (remote.map (localName namePrefix)),
        registry ++ remote.map (entryOf client namePrefix)) := by
  induction remote generalizing registry with
  | nil => rw [registerAll, List.map_nil, List.map_nil, List.append_nil]
  | cons tool remote ih =>
    have first := free.2 tool List.mem_cons_self
    rw [registerAll_cons first, ih ((unconflicted_cons_iff first).mp free), List.map_cons,
      List.map_cons, List.append_assoc]
    rfl

/-- With a conflict the tools before it have their entries. -/
theorem registerAll_of_conflict (client : ℕ)
    (conflict : ¬ Unconflicted namePrefix registry remote) :
    ∃ before tool after message, remote = before ++ tool :: after ∧
      registerAll client namePrefix registry remote =
        (.error message, registry ++ before.map (entryOf client namePrefix)) ∧
      (Dict.get (registry ++ before.map (entryOf client namePrefix))
        (localName namePrefix tool)).isSome = true := by
  induction remote generalizing registry with
  | nil => exact absurd ⟨List.nodup_nil, List.forall_mem_nil _⟩ conflict
  | cons tool remote ih =>
    cases taken : Dict.get registry (localName namePrefix tool) with
    | some other =>
      refine ⟨[], tool, remote, conflictMessage (localName namePrefix tool), rfl, ?_, ?_⟩
      · rw [registerAll, taken, List.map_nil, List.append_nil]
        rfl
      · rw [List.map_nil, List.append_nil, taken]
        rfl
    | none =>
      obtain ⟨before, last, after, message, rfl, raises, found⟩ :=
        ih (mt (unconflicted_cons_iff taken).mpr conflict)
      rw [List.append_assoc] at raises found
      refine ⟨tool :: before, last, after, message, rfl, ?_, found⟩
      rw [registerAll_cons taken, raises]
      rfl

/-- A first tool with a conflict leaves the registry as it is. -/
theorem registerAll_of_firstTaken (client : ℕ)
    (taken : FirstTaken namePrefix registry remote) :
    ∃ message, registerAll client namePrefix registry remote = (.error message, registry) := by
  obtain ⟨tool, first, found⟩ := taken
  obtain ⟨later, rfl⟩ := List.head?_eq_some_iff.mp first
  exact ⟨conflictMessage (localName namePrefix tool), by rw [registerAll, found]; rfl⟩

end Loop

section Startup

variable {process : Process Function} {settings : McpSettings}
  {started : Except Str (Dict Str Object)} {listed : Except Str (List McpToolDefinition)}

/-- `register_mcp_tools` leaves the registry or adds an entry of its own for every tool, and no tool
is left that calls a closed client. -/
structure AllOrNothing (process : Process Function) (settings : McpSettings)
    (started : Except Str (Dict Str Object)) (listed : Except Str (List McpToolDefinition)) :
    Prop where
  raised : ∀ message registry, registerMcpTools process.clients settings.mcpToolPrefix listed
    process.registry = (.error message, registry) → registry = process.registry
  returned : ∀ names registry, registerMcpTools process.clients settings.mcpToolPrefix listed
    process.registry = (.ok names, registry) → ∃ remote, listed = .ok remote ∧
      names = remote.map (localName settings.mcpToolPrefix) ∧ names.Nodup ∧
      (∀ name ∈ names, name ∉ process.registry.keys) ∧
      registry = process.registry ++ remote.map (entryOf process.clients settings.mcpToolPrefix)
  closed : process.clients ∈ (setUpMcp process settings started listed).closed →
    ∀ entry ∈ (setUpMcp process settings started listed).registry,
      ¬ entry.2.Calls process.clients

/-- There is no conflict, or the first tool has one; and where the server's name cannot be read,
no tool is registered. -/
structure Separate (process : Process Function) (settings : McpSettings)
    (started : Except Str (Dict Str Object)) (listed : Except Str (List McpToolDefinition)) :
    Prop where
  conflicts : ∀ remote, listed = .ok remote →
    Unconflicted settings.mcpToolPrefix process.registry remote ∨
      FirstTaken settings.mcpToolPrefix process.registry remote
  named : settings.mcpEnabled = true → settings.mcpServerUrl ≠ [] →
    ∀ serverInfo remote, started = .ok serverInfo → listed = .ok remote →
      serverName serverInfo = none →
        remote = [] ∨ FirstTaken settings.mcpToolPrefix process.registry remote

/-- Whether or not it raises, the registry is as claimed exactly if no tool but the first has a
conflict. -/
theorem unchanged_iff {client : ℕ} {namePrefix : Str} {registry : BoundRegistry Function}
    {remote : List McpToolDefinition} :
    (∀ message registry', registerAll client namePrefix registry remote = (.error message, registry') →
      registry' = registry) ↔
    Unconflicted namePrefix registry remote ∨ FirstTaken namePrefix registry remote := by
  constructor
  · intro unchanged
    refine or_iff_not_imp_left.mpr fun conflict => ?_
    obtain ⟨before, tool, after, message, rfl, raises, found⟩ :=
      registerAll_of_conflict client conflict
    have none := List.append_right_eq_self.mp (unchanged message _ raises)
    obtain rfl := List.map_eq_nil_iff.mp none
    rw [List.map_nil, List.append_nil] at found
    exact ⟨tool, rfl, found⟩
  · rintro (free | taken) message registry' raises
    · rw [registerAll_of_unconflicted free] at raises
      cases raises
    · obtain ⟨message', raises'⟩ := registerAll_of_firstTaken client taken
      rw [raises'] at raises
      exact (Prod.mk.inj raises).2.symm

theorem not_calls_of_known (process : Process Function) :
    ∀ entry ∈ process.registry, ¬ entry.2.Calls process.clients := by
  rintro entry member ⟨name, handler⟩
  exact Nat.lt_irrefl _ (process.known entry member process.clients name handler)

/-- Where it returns, there was no conflict, and every tool has an entry of its own. -/
theorem registerMcpTools_ok {client : ℕ} {namePrefix : Str}
    {registry registry' : BoundRegistry Function} {names : List Str}
    (registered : registerMcpTools client namePrefix listed registry = (.ok names, registry')) :
    ∃ remote, listed = .ok remote ∧ names = remote.map (localName namePrefix) ∧ names.Nodup ∧
      (∀ name ∈ names, name ∉ registry.keys) ∧
      registry' = registry ++ remote.map (entryOf client namePrefix) := by
  cases listed with
  | error message => cases registered
  | ok remote =>
    rw [registerMcpTools] at registered
    by_cases free : Unconflicted namePrefix registry remote
    · rw [registerAll_of_unconflicted free] at registered
      cases registered
      obtain ⟨distinct, absent⟩ := unconflicted_iff.mp free
      exact ⟨remote, rfl, rfl, distinct, absent, rfl⟩
    · obtain ⟨before, tool, after, message, -, raises, -⟩ :=
        registerAll_of_conflict client free
      rw [raises] at registered
      cases registered

/-- The client is used, and it has listed tools that were registered. -/
structure Registered (process : Process Function) (settings : McpSettings)
    (started : Except Str (Dict Str Object)) (listed : Except Str (List McpToolDefinition))
    (serverInfo : Dict Str Object) (names : List Str) (registry : BoundRegistry Function) :
    Prop where
  enabled : settings.mcpEnabled = true
  url : settings.mcpServerUrl ≠ []
  started : started = .ok serverInfo
  registered : registerMcpTools process.clients settings.mcpToolPrefix listed process.registry =
    (.ok names, registry)

theorem setUpMcp_of_registered {serverInfo : Dict Str Object} {names : List Str}
    {registry : BoundRegistry Function}
    (registered : Registered process settings started listed serverInfo names registry) :
    (setUpMcp process settings started listed).registry = registry ∧
    (process.clients ∈ (setUpMcp process settings started listed).closed ↔
      serverName serverInfo = none) := by
  obtain ⟨enabled, url, rfl, registered⟩ := registered
  unfold setUpMcp
  rw [enabled, if_neg (by simp [url])]
  dsimp only
  rw [registered]
  cases named : serverName serverInfo <;> simp

/-- Otherwise the registry is the one before, or that of `register_mcp_tools` when it raises. -/
theorem setUpMcp_cases (process : Process Function) (settings : McpSettings)
    (started : Except Str (Dict Str Object)) (listed : Except Str (List McpToolDefinition)) :
    (setUpMcp process settings started listed).registry = process.registry ∨
    (∃ message, registerMcpTools process.clients settings.mcpToolPrefix listed process.registry =
      (.error message, (setUpMcp process settings started listed).registry)) ∨
    ∃ serverInfo names registry,
      Registered process settings started listed serverInfo names registry := by
  by_cases used : settings.mcpEnabled = true ∧ settings.mcpServerUrl ≠ []
  · obtain ⟨enabled, url⟩ := used
    cases started with
    | error message =>
      unfold setUpMcp
      rw [enabled, if_neg (by simp [url])]
      exact .inl rfl
    | ok serverInfo =>
      cases outcome : registerMcpTools process.clients settings.mcpToolPrefix listed
          process.registry with
      | mk registered registry =>
        cases registered with
        | error message =>
          unfold setUpMcp
          rw [enabled, if_neg (by simp [url]), outcome]
          exact .inr (.inl ⟨message, rfl⟩)
        | ok names => exact .inr (.inr ⟨serverInfo, names, registry, enabled, url, rfl, outcome⟩)
  · unfold setUpMcp
    rw [if_pos (by simpa [imp_iff_not_or] using used)]
    exact .inl rfl

/-- The registration is all or nothing exactly if no tool but the first has a conflict and the
server's name can be read where there are tools. -/
theorem allOrNothing_iff :
    AllOrNothing process settings started listed ↔ Separate process settings started listed := by
  constructor
  · intro whole
    refine ⟨?_, ?_⟩
    · rintro remote rfl
      exact unchanged_iff.mp whole.raised
    · rintro enabled url serverInfo remote rfl rfl unnamed
      refine (unchanged_iff.mp whole.raised).elim (fun free => .inl ?_) .inr
      have registered : Registered process settings (.ok serverInfo) (.ok remote) serverInfo _ _ :=
        ⟨enabled, url, rfl, registerAll_of_unconflicted free⟩
      obtain ⟨left, closes⟩ := setUpMcp_of_registered registered
      have unbound := whole.closed (closes.mpr unnamed)
      rw [left] at unbound
      refine List.eq_nil_iff_forall_not_mem.mpr fun tool member => ?_
      exact unbound _ (List.mem_append_right _ (List.mem_map_of_mem member)) ⟨tool.name, rfl⟩
  · intro separate
    have raised : ∀ message registry, registerMcpTools process.clients settings.mcpToolPrefix listed
        process.registry = (.error message, registry) → registry = process.registry := by
      cases listed with
      | error message' =>
        rintro message registry ⟨⟩
        rfl
      | ok remote => exact unchanged_iff.mpr (separate.conflicts remote rfl)
    refine ⟨raised, fun _ _ registered => registerMcpTools_ok registered, fun closes => ?_⟩
    obtain before | ⟨message, raises⟩ | ⟨serverInfo, names, registry, used⟩ :=
      setUpMcp_cases process settings started listed
    · rw [before]
      exact not_calls_of_known process
    · rw [raised message _ raises]
      exact not_calls_of_known process
    · obtain ⟨left, closes'⟩ := setUpMcp_of_registered used
      obtain ⟨remote, rfl, -, -, absent, whole⟩ := registerMcpTools_ok used.registered
      obtain rfl | taken := separate.named used.enabled used.url serverInfo remote used.started rfl
        (closes'.mp closes)
      · rw [left, whole, List.map_nil, List.append_nil]
        exact not_calls_of_known process
      · obtain ⟨message, raises⟩ := registerAll_of_firstTaken process.clients taken
        have registered := used.registered
        rw [registerMcpTools, raises] at registered
        cases registered

section Servers

/-- A process with one tool of its own -/
def searchProcess : Process Unit where
  registry := [(.lit "search", ⟨⟨.lit "search", .lit "Searches the documents", []⟩, .own ()⟩)]
  clients := 1
  known := by
    rintro entry member client name handler
    rw [List.mem_singleton.mp member] at handler
    cases handler

def mcpSettings : McpSettings := ⟨true, .lit "http://localhost:8080/mcp", [], false⟩

/-- Two tools, the second with the name of the process's tool -/
def remoteTools : List McpToolDefinition :=
  [⟨.lit "weather", .lit "Tells the weather", []⟩, ⟨.lit "search", .lit "Searches the web", []⟩]

/-- The first tool stays registered. -/
theorem remoteTools_not_allOrNothing : ¬ ∀ (process : Process Unit) settings started listed,
    AllOrNothing process settings started listed := by
  intro all
  have whole := all searchProcess mcpSettings (.ok []) (.ok remoteTools)
  have unchanged := whole.raised (conflictMessage (.lit "search"))
    (searchProcess.registry ++ [entryOf 1 [] ⟨.lit "weather", .lit "Tells the weather", []⟩]) rfl
  cases unchanged

end Servers

end Startup

end HeyeeAgent.Mcp
