import Pactmark.Durable.OrderedMap
import Pactmark.Durable.Runs
import Pactmark.Mcp.Discovery
import Pactmark.Policy.Evaluate

/-!
# Mcp — the calls of a connection

`exposeTools` and the connection of `connectMCPServer` in `mcp/src/adapter.ts`.  A connection
serves any number of calls.  Between the awaits of one of them the others run, kill switches are
activated and deactivated, the connection is closed, and the authority answers as it likes.

The closed flag and the kill switch are read before the authorization is awaited, and not after.

* `exposeTools_granted`: an exposed tool was granted when it was exposed.
* `tool_of_run`: a call that waits has passed the first checks, with the tool it waits for.
* `callTool_effective_iff`: what holds when the client is called, and when.
-/

namespace Pactmark

open Durable Policy
open JsString (lit)

namespace Mcp

variable {Num : Type}

/-! ### The exposed tools -/

/-- What the adapter reads of an `MCPToolPin`. -/
structure MCPToolPin where
  toolName : JsString
  toolRegistrationDigest : Digest
  inputSchemaDigest : Digest
  outputSchemaDigest : Digest
  mcpToolPinDigest : Digest
  allowedPurposeCodes : List String
  requiredScopes : List String

/-- What an `MCPExposureAuthority` answers. -/
structure MCPExposureAuthorization where
  allowed : Bool
  grantId : Option String

/-- A `BoundMCPTool`; of its registration the adapter reads the scopes. -/
structure BoundMCPTool (Num : Type) where
  toolName : JsString
  requiredScopes : List String
  pinDigest : Digest
  grantId : String
  inputValidator : Json Num → Bool
  outputValidator : Option (Json Num → Bool)

/-- `z.fromJSONSchema`, which may throw. -/
abbrev FromJSONSchema (Num : Type) :=
  Json Num → Except Thrown (Json Num → Bool)

/-- `validatorFromJsonSchema`. -/
def validatorFromJsonSchema (fromJSONSchema : FromJSONSchema Num) (schema : Json Num)
    (label : String) : Except MCPFailure (Json Num → Bool) :=
  (fromJSONSchema schema).mapError fun _ =>
    .adapter .KAF_MCP_TOOL_SCHEMA_DRIFT
      ("The pinned MCP " ++ label ++ " schema is not executable")

/-- The validator of an output schema, if there is one. -/
def outputValidatorOf (fromJSONSchema : FromJSONSchema Num) :
    Option (Json Num) → Except MCPFailure (Option (Json Num → Bool))
  | none => .ok none
  | some schema => some <$> validatorFromJsonSchema fromJSONSchema schema "output"

/-- The tool of a pin that is exposed. -/
def boundTool (fromJSONSchema : FromJSONSchema Num) (pin : MCPToolPin)
    (discoveredTool : DiscoveredTool Num) (grantId : String) :
    Except MCPFailure (BoundMCPTool Num) := do
  let inputValidator ←
    validatorFromJsonSchema fromJSONSchema discoveredTool.inputSchema "input"
  let outputValidator ← outputValidatorOf fromJSONSchema discoveredTool.outputSchema
  return {
    toolName := pin.toolName
    requiredScopes := pin.requiredScopes
    pinDigest := pin.mcpToolPinDigest
    grantId, inputValidator, outputValidator }

/-- The loop of `exposeTools`; the authority's answers are those it gives for the pins. -/
def exposePins (fromJSONSchema : FromJSONSchema Num)
    (discoveredByName : OrderedMap JsString (DiscoveredTool Num)) (purposeCode : String)
    (authorize : MCPToolPin → Except Thrown MCPExposureAuthorization) :
    List MCPToolPin → OrderedMap Digest (BoundMCPTool Num) →
      Except MCPFailure (OrderedMap Digest (BoundMCPTool Num))
  | [], exposed => .ok exposed
  | pin :: pins, exposed =>
      match discoveredByName.get pin.toolName with
      | none => exposePins fromJSONSchema discoveredByName purposeCode authorize pins exposed
      | some discoveredTool =>
          if pin.inputSchemaDigest ≠ discoveredTool.inputSchemaDigest ∨
              pin.outputSchemaDigest ≠ discoveredTool.outputSchemaDigest then
            .error (.adapter .KAF_MCP_TOOL_SCHEMA_DRIFT "A pinned MCP tool schema changed")
          else if purposeCode ∉ pin.allowedPurposeCodes then
            exposePins fromJSONSchema discoveredByName purposeCode authorize pins exposed
          else
            match authorize pin with
            | .error e => .error (.thrown e)
            | .ok ⟨true, some grantId⟩ =>
                match boundTool fromJSONSchema pin discoveredTool grantId with
                | .error e => .error e
                | .ok tool =>
                    exposePins fromJSONSchema discoveredByName purposeCode authorize pins
                      (exposed.set pin.toolRegistrationDigest tool)
            | .ok _ =>
                exposePins fromJSONSchema discoveredByName purposeCode authorize pins exposed

/-- `exposeTools`. -/
def exposeTools (fromJSONSchema : FromJSONSchema Num) (discovered : List (DiscoveredTool Num))
    (pins : List MCPToolPin) (purposeCode : String)
    (authorize : MCPToolPin → Except Thrown MCPExposureAuthorization) :
    Except MCPFailure (OrderedMap Digest (BoundMCPTool Num)) :=
  exposePins fromJSONSchema
    (OrderedMap.ofEntries (discovered.map fun tool => (tool.name, tool))) purposeCode authorize
    pins .empty

/-- The tool was granted for a pin of the registration. -/
def GrantedFor (pins : List MCPToolPin)
    (authorize : MCPToolPin → Except Thrown MCPExposureAuthorization) (digest : Digest)
    (tool : BoundMCPTool Num) : Prop :=
  ∃ pin ∈ pins, pin.toolRegistrationDigest = digest ∧ pin.toolName = tool.toolName ∧
    authorize pin = .ok ⟨true, some tool.grantId⟩

/-- `connectMCPServer` returns it: the identity is that of the server, and the tools are those it
exposes. -/
structure MCPConnection (num : NumberFormat Num) where
  limits : MCPLimits
  serverIdentityDigest : Digest
  hasKillSwitches : Bool
  fromJSONSchema : FromJSONSchema Num
  discovered : List (DiscoveredTool Num)
  pins : List MCPToolPin
  purposeCode : String
  authorize : MCPToolPin → Except Thrown MCPExposureAuthorization
  exposed : OrderedMap Digest (BoundMCPTool Num)
  exposes : exposeTools fromJSONSchema discovered pins purposeCode authorize = .ok exposed

/-! ### A call -/

/-- What `client.callTool` is called with. -/
structure Dispatch (Num : Type) where
  name : JsString
  arguments : List (JsString × Json Num)

/-- What `client.callTool` throws, as far as the adapter reads it. -/
structure ClientError where
  code : Option Int

/-- Where a call is: it awaits the authority, has its answer, awaits the client, or is settled. -/
inductive CallPhase (Num : Type) where
  | authorizing (tool : BoundMCPTool Num)
  | answered (tool : BoundMCPTool Num)
      (authorization : Except Thrown MCPExposureAuthorization)
  | dispatched (tool : BoundMCPTool Num)
  | settled (result : Except MCPFailure (Json Num))

/-- A call of `callTool`; `aborted` is its signal. -/
structure Call (Num : Type) where
  toolRegistrationDigest : Digest
  input : Json Num
  aborted : Bool
  phase : CallPhase Num

/-- `mcpCallArguments`. -/
def mcpCallArguments : Json Num → Except MCPFailure (List (JsString × Json Num))
  | .object members => .ok members
  | _ => .error (.adapter .KAF_MCP_MALFORMED_RESPONSE "MCP tool arguments must be a JSON object")

variable {num : NumberFormat Num}

/-- The arguments of a call, after it is authorized. -/
def checkedArguments (c : MCPConnection num) (tool : BoundMCPTool Num) (input : Json Num) :
    Except MCPFailure (List (JsString × Json Num)) :=
  if !jsonAccepts num input then .error (.thrown (.host "ZodError" true))
  else
    match canonicalJsonStringify num input with
    | .error e => .error (.canonical e)
    | .ok text =>
        if c.limits.maxRequestBytes < (utf8Encode text).length then
          .error (.adapter .KAF_MCP_LIMIT_EXCEEDED "MCP tool arguments exceed their byte limit")
        else
          match mcpCallArguments input with
          | .error e => .error e
          | .ok members =>
              if !tool.inputValidator (.object members) then
                .error (.adapter .KAF_MCP_TOOL_INPUT_INVALID
                  "MCP tool arguments do not match the pinned input schema")
              else .ok members

/-- What a call does with the answer of the authority, up to the call of the client. -/
def afterAuthorization (c : MCPConnection num) (call : Call Num) (tool : BoundMCPTool Num) :
    Except Thrown MCPExposureAuthorization → Except MCPFailure (Dispatch Num)
  | .error e => .error (.thrown e)
  | .ok authorization =>
      if !authorization.allowed ∨ authorization.grantId ≠ some tool.grantId then
        .error (.adapter .KAF_MCP_EXPOSURE_DENIED "MCP authority was revoked or changed")
      else
        match checkedArguments c tool call.input with
        | .error e => .error e
        | .ok members =>
            -- `boundedSignal` throws for a signal that is aborted.
            if call.aborted then
              .error (.adapter .KAF_MCP_ABORTED "MCP tool call was cancelled")
            else .ok ⟨tool.toolName, members⟩

/-- What the adapter reads of a call's result. -/
structure CallResult (Num : Type) where
  isError : Bool
  output : Json Num

/-- `MCPCallResultSchema`, and the output it carries. -/
def parseCallResult (num : NumberFormat Num) : Json Num → Option (CallResult Num)
  | .object members =>
      match property members "content", parseOutputSchema num (property members "structuredContent"),
        property members "isError" with
      | some (.array content), some structured, none =>
          if itemsAccepted num content then some ⟨false, structured.getD (.array content)⟩
          else none
      | some (.array content), some structured, some (.bool isError) =>
          if itemsAccepted num content then some ⟨isError, structured.getD (.array content)⟩
          else none
      | _, _, _ => none
  | _ => none

/-- What a call does with what the client answers. -/
def afterCallTool (c : MCPConnection num) (call : Call Num) (tool : BoundMCPTool Num) :
    Except ClientError (Json Num) → Except MCPFailure (Json Num)
  | .error e =>
      if call.aborted then .error (.adapter .KAF_MCP_ABORTED "MCP tool call was cancelled")
      else if e.code = some (-32602) then
        .error (.adapter .KAF_MCP_TOOL_OUTPUT_INVALID
          "MCP tool output does not match the pinned output schema")
      else .error (.adapter .KAF_MCP_CONNECTION_FAILED "MCP tool call failed")
  | .ok rawResult =>
      match parseCallResult num rawResult with
      | none =>
          .error (.adapter .KAF_MCP_MALFORMED_RESPONSE
            "MCP tools/call returned a malformed response")
      | some result => do
          boundedJson num rawResult c.limits.maxResponseBytes "MCP tools/call"
          if result.isError then
            throw (.adapter .KAF_MCP_CONNECTION_FAILED "The MCP server reported a tool error")
          else if !tool.outputValidator.all (· result.output) then
            throw (.adapter .KAF_MCP_TOOL_OUTPUT_INVALID
              "MCP tool output does not match the pinned output schema")
          else return result.output

/-! ### The connection -/

/-- What a call waits for, or what its caller does. -/
inductive CallEvent (Num : Type) where
  | abort
  | answer (authorization : Except Thrown MCPExposureAuthorization)
  | resume
  | respond (response : Except ClientError (Json Num))

/-- A step: of the host, of its kill switches, or of a call that was made before. -/
inductive MCPStep (Num : Type) where
  | activate (target : KillSwitchTargetKind × Digest)
  | deactivate (target : KillSwitchTargetKind × Digest)
  | close
  | callTool (toolRegistrationDigest : Digest) (input : Json Num)
  | advance (call : Nat) (event : CallEvent Num)

/-- What a connection and the registry of its host remember. -/
structure ConnectionState (Num : Type) where
  killSwitches : KillSwitches
  closed : Bool
  calls : List (Call Num)

/-- The client is called with it, if the call goes on now. -/
def Call.dispatch (c : MCPConnection num) (call : Call Num) : Option (Dispatch Num) :=
  match call.phase with
  | .answered tool authorization => (afterAuthorization c call tool authorization).toOption
  | _ => none

/-- A call that goes on. -/
def Call.advance (c : MCPConnection num) (call : Call Num) : CallEvent Num → Call Num
  | .abort => { call with aborted := true }
  | .answer authorization =>
      match call.phase with
      | .authorizing tool => { call with phase := .answered tool authorization }
      | _ => call
  | .resume =>
      match call.phase with
      | .answered tool authorization =>
          match afterAuthorization c call tool authorization with
          | .error e => { call with phase := .settled (.error e) }
          | .ok _ => { call with phase := .dispatched tool }
      | _ => call
  | .respond response =>
      match call.phase with
      | .dispatched tool => { call with phase := .settled (afterCallTool c call tool response) }
      | _ => call

/-- The target of the server's kill switch. -/
def MCPConnection.target (c : MCPConnection num) : KillSwitchTargetKind × Digest :=
  (.mcp_server, c.serverIdentityDigest)

/-- `config.killSwitches?.isKilled("mcp_server", …) === true`. -/
def MCPConnection.isKilled (c : MCPConnection num) (s : ConnectionState Num) : Bool :=
  c.hasKillSwitches && decide (c.target ∈ s.killSwitches)

/-- A call up to its first await. -/
def startCall (c : MCPConnection num) (s : ConnectionState Num) (toolRegistrationDigest : Digest) :
    CallPhase Num :=
  if s.closed then
    .settled (.error (.adapter .KAF_MCP_CONNECTION_FAILED "MCP connection is closed"))
  else if c.isKilled s then
    .settled (.error (.adapter .KAF_MCP_SERVER_KILLED
      "The pinned MCP server is disabled by the host kill switch"))
  else
    match c.exposed.get toolRegistrationDigest with
    | none =>
        .settled (.error (.adapter .KAF_MCP_TOOL_NOT_EXPOSED
          "The MCP tool is not exposed by the pinned host policy"))
    | some tool => .authorizing tool

/-- One step of a connection. -/
def MCPConnection.step (c : MCPConnection num) (s : ConnectionState Num) :
    MCPStep Num → ConnectionState Num
  | .activate target => { s with killSwitches := target :: s.killSwitches }
  | .deactivate target =>
      { s with killSwitches := s.killSwitches.filter fun active => decide (active ≠ target) }
  | .close => { s with closed := true }
  | .callTool digest input =>
      { s with calls := s.calls ++ [⟨digest, input, false, startCall c s digest⟩] }
  | .advance call event =>
      { s with calls := s.calls.modify call fun call => call.advance c event }

/-- The state after a run. -/
def MCPConnection.run (c : MCPConnection num) (s : ConnectionState Num)
    (steps : List (MCPStep Num)) : ConnectionState Num :=
  steps.foldl c.step s
/-! ### What was granted -/

section Exposed

variable {fromJSONSchema : FromJSONSchema Num} {pins : List MCPToolPin} {purposeCode : String}
  {authorize : MCPToolPin → Except Thrown MCPExposureAuthorization}
  {exposed : OrderedMap Digest (BoundMCPTool Num)}

theorem boundTool_ok {pin : MCPToolPin} {discoveredTool : DiscoveredTool Num} {grantId : String}
    {tool : BoundMCPTool Num}
    (h : boundTool fromJSONSchema pin discoveredTool grantId = .ok tool) :
    tool.toolName = pin.toolName ∧ tool.grantId = grantId := by
  unfold boundTool at h
  obtain ⟨inputValidator, -, h⟩ := bind_eq_ok.mp h
  obtain ⟨outputValidator, -, h⟩ := bind_eq_ok.mp h
  obtain rfl := Except.ok.inj h
  exact ⟨rfl, rfl⟩

/-- The loop adds what it is granted. -/
theorem exposePins_granted {discoveredByName : OrderedMap JsString (DiscoveredTool Num)}
    {rest : List MCPToolPin} {map : OrderedMap Digest (BoundMCPTool Num)}
    (h : exposePins fromJSONSchema discoveredByName purposeCode authorize rest map = .ok exposed)
    (hrest : rest ⊆ pins)
    (hmap : ∀ digest tool, map.get digest = some tool → GrantedFor pins authorize digest tool)
    {digest : Digest} {tool : BoundMCPTool Num} (hget : exposed.get digest = some tool) :
    GrantedFor pins authorize digest tool := by
  induction rest generalizing map with
  | nil =>
    obtain rfl := Except.ok.inj h
    exact hmap digest tool hget
  | cons pin rest ih =>
    obtain ⟨hpin, hrest⟩ := List.cons_subset.mp hrest
    unfold exposePins at h
    split at h
    · exact ih h hrest hmap
    split at h
    · cases h
    split at h
    · exact ih h hrest hmap
    split at h
    · cases h
    · rename_i grantId hgrant
      split at h
      · cases h
      · rename_i bound hbound
        obtain ⟨hname, rfl⟩ := boundTool_ok hbound
        refine ih h hrest fun d t ht => ?_
        rw [OrderedMap.get_set] at ht
        split at ht
        · rename_i hd
          obtain rfl := Option.some.inj ht
          exact ⟨pin, hpin, hd.symm, hname.symm, hgrant⟩
        · exact hmap d t ht
    · exact ih h hrest hmap

/-- **An exposed tool was granted** when it was exposed, for the pin it comes from. -/
theorem exposeTools_granted {discovered : List (DiscoveredTool Num)}
    (h : exposeTools fromJSONSchema discovered pins purposeCode authorize = .ok exposed)
    {digest : Digest} {tool : BoundMCPTool Num} (hget : exposed.get digest = some tool) :
    GrantedFor pins authorize digest tool :=
  exposePins_granted h (List.Subset.refl _) (by simp) hget

end Exposed

/-! ### The calls of a run -/

/-- The tool of a call that is not settled. -/
def CallPhase.tool : CallPhase Num → Option (BoundMCPTool Num)
  | .authorizing tool => some tool
  | .answered tool _ => some tool
  | .dispatched tool => some tool
  | .settled _ => none

variable {c : MCPConnection num} {s : ConnectionState Num} {steps waiting : List (MCPStep Num)}

@[simp] theorem run_nil : c.run s [] = s := rfl

@[simp] theorem run_snoc (step : MCPStep Num) :
    c.run s (steps ++ [step]) = c.step (c.run s steps) step := by
  simp [MCPConnection.run]

/-- **A call that goes on** is for what it was, and has had the tool it has. -/
theorem tool_of_advance {call : Call Num} {event : CallEvent Num} {tool : BoundMCPTool Num}
    (h : (call.advance c event).phase.tool = some tool) :
    call.phase.tool = some tool ∧
      (call.advance c event).toolRegistrationDigest = call.toolRegistrationDigest := by
  cases event with
  | abort => exact ⟨h, rfl⟩
  | answer authorization =>
    simp only [Call.advance] at h ⊢
    split at h <;> simp_all [CallPhase.tool]
  | resume =>
    simp only [Call.advance] at h ⊢
    split at h
    · rename_i hphase
      split at h <;> simp_all [CallPhase.tool]
    · simp_all
  | respond response =>
    simp only [Call.advance] at h ⊢
    split at h <;> simp_all [CallPhase.tool]

/-- **One step of the calls**: one more call starts, or those there are go on. -/
theorem call_of_step {step : MCPStep Num} {i : Nat} {call : Call Num}
    (h : (c.step s step).calls[i]? = some call) :
    (∃ input, step = .callTool call.toolRegistrationDigest input ∧ i = s.calls.length ∧
        call.phase = startCall c s call.toolRegistrationDigest) ∨
      ∃ before, s.calls[i]? = some before ∧ ∀ tool, call.phase.tool = some tool →
        before.phase.tool = some tool ∧
          call.toolRegistrationDigest = before.toolRegistrationDigest := by
  cases step with
  | activate target => exact .inr ⟨call, h, fun tool htool => ⟨htool, rfl⟩⟩
  | deactivate target => exact .inr ⟨call, h, fun tool htool => ⟨htool, rfl⟩⟩
  | close => exact .inr ⟨call, h, fun tool htool => ⟨htool, rfl⟩⟩
  | callTool digest input =>
    simp only [MCPConnection.step] at h
    rcases Nat.lt_or_ge i s.calls.length with hlt | hge
    · rw [List.getElem?_append_left hlt] at h
      exact .inr ⟨call, h, fun tool htool => ⟨htool, rfl⟩⟩
    · rw [List.getElem?_append_right hge] at h
      obtain ⟨hi, rfl⟩ := List.getElem?_eq_some_iff.mp h
      simp only [List.length_singleton] at hi
      have hi : i = s.calls.length := by omega
      subst hi
      exact .inl ⟨input, by simp, rfl, by simp⟩
  | advance j event =>
    simp only [MCPConnection.step, List.getElem?_modify] at h
    obtain ⟨before, hbefore, rfl⟩ := Option.map_eq_some_iff.mp h
    refine .inr ⟨before, hbefore, fun tool htool => ?_⟩
    split at htool
    · rename_i hj
      rw [if_pos hj]
      exact tool_of_advance htool
    · rename_i hj
      rw [if_neg hj]
      exact ⟨htool, rfl⟩

theorem length_le_step (step : MCPStep Num) :
    s.calls.length ≤ (c.step s step).calls.length := by
  cases step <;> simp [MCPConnection.step]

theorem length_le_run : s.calls.length ≤ (c.run s steps).calls.length := by
  induction steps using List.reverseRecOn with
  | nil => exact Nat.le_refl _
  | append_singleton steps step ih =>
    rw [run_snoc]
    exact ih.trans (length_le_step step)

/-- **A call has started** somewhere in the run. -/
theorem exists_start {i : Nat} {call : Call Num} (hnone : s.calls = [])
    (h : (c.run s steps).calls[i]? = some call) :
    ∃ start digest input waiting, steps = start ++ .callTool digest input :: waiting ∧
      (c.run s start).calls.length = i := by
  induction steps using List.reverseRecOn generalizing call with
  | nil => simp [hnone] at h
  | append_singleton steps step ih =>
    rw [run_snoc] at h
    rcases call_of_step h with ⟨input, rfl, rfl, -⟩ | ⟨before, hbefore, -⟩
    · exact ⟨steps, _, input, [], rfl, rfl⟩
    · obtain ⟨start, digest, input, waiting, rfl, hi⟩ := ih hbefore
      exact ⟨start, digest, input, waiting ++ [step], by simp, hi⟩

/-- **A call that waits** has passed the first checks: the connection was open, the server active
and the tool exposed when it started. -/
theorem tool_of_run {start : List (MCPStep Num)} {digest : Digest} {input : Json Num}
    {call : Call Num} {tool : BoundMCPTool Num}
    (h : (c.run s (start ++ .callTool digest input :: waiting)).calls[
      (c.run s start).calls.length]? = some call)
    (htool : call.phase.tool = some tool) :
    startCall c (c.run s start) digest = .authorizing tool ∧
      call.toolRegistrationDigest = digest := by
  induction waiting using List.reverseRecOn generalizing call with
  | nil =>
    rw [run_snoc] at h
    simp only [MCPConnection.step, List.getElem?_concat_length, Option.some.injEq] at h
    obtain rfl := h
    refine ⟨?_, rfl⟩
    dsimp only at htool
    unfold startCall at htool ⊢
    split_ifs at htool ⊢
    · cases htool
    · cases htool
    · split at htool
      · cases htool
      · rw [← Option.some.inj htool]
  | append_singleton waiting step ih =>
    rw [← List.cons_append, ← List.append_assoc, run_snoc] at h
    rcases call_of_step h with ⟨input', -, hi, -⟩ | ⟨before, hbefore, hkeep⟩
    · -- The call is there already, so it is not the one that starts.
      have hgrown : (c.run s start).calls.length <
          (c.run s (start ++ .callTool digest input :: waiting)).calls.length := by
        rw [show start ++ .callTool digest input :: waiting =
          (start ++ [.callTool digest input]) ++ waiting by simp]
        unfold MCPConnection.run
        rw [List.foldl_append]
        refine Nat.lt_of_lt_of_le ?_ length_le_run
        change _ < (c.run s (start ++ [.callTool digest input])).calls.length
        rw [run_snoc]
        simp [MCPConnection.step, MCPConnection.run]
      omega
    · obtain ⟨htool, hdigest⟩ := hkeep tool htool
      obtain ⟨hstart, hd⟩ := ih hbefore htool
      exact ⟨hstart, hdigest.trans hd⟩
/-! ### What happens while a call waits -/

/-- The connection is closed while a call waits, or its server's kill switch is activated and not
deactivated again. -/
def Interrupted (c : MCPConnection num) (waiting : List (MCPStep Num)) : Prop :=
  .close ∈ waiting ∨ c.hasKillSwitches = true ∧
    ∃ before later, waiting = before ++ .activate c.target :: later ∧
      MCPStep.deactivate c.target ∉ later

theorem closed_of_run (h : s.closed = false) :
    (c.run s steps).closed = true ↔ .close ∈ steps := by
  induction steps using List.reverseRecOn with
  | nil => simp [h]
  | append_singleton steps step ih =>
    rw [run_snoc, List.mem_append, List.mem_singleton, ← ih]
    cases step <;> simp [MCPConnection.step]

/-- **One step of the kill switch** of the server. -/
theorem killed_of_step {step : MCPStep Num} :
    c.target ∈ (c.step s step).killSwitches ↔
      step = .activate c.target ∨ c.target ∈ s.killSwitches ∧ step ≠ .deactivate c.target := by
  cases step with
  | activate target => simp [MCPConnection.step, @eq_comm _ c.target target]
  | deactivate target => simp [MCPConnection.step, @eq_comm _ c.target target]
  | close => simp [MCPConnection.step]
  | callTool digest input => simp [MCPConnection.step]
  | advance call event => simp [MCPConnection.step]

/-- **The kill switch after a run** is the last thing that was done to it. -/
theorem killed_of_run (h : c.target ∉ s.killSwitches) :
    c.target ∈ (c.run s steps).killSwitches ↔
      ∃ before later, steps = before ++ .activate c.target :: later ∧
        MCPStep.deactivate c.target ∉ later := by
  induction steps using List.reverseRecOn with
  | nil => simp [h]
  | append_singleton steps step ih =>
    rw [run_snoc, killed_of_step, ih]
    constructor
    · rintro (rfl | ⟨⟨before, later, rfl, hlater⟩, hstep⟩)
      · exact ⟨steps, [], rfl, List.not_mem_nil⟩
      · refine ⟨before, later ++ [step], by simp, ?_⟩
        rw [List.mem_append, List.mem_singleton, not_or]
        exact ⟨hlater, Ne.symm hstep⟩
    · rintro ⟨before, later, hsteps, hlater⟩
      rcases snoc_eq_append_cons.mp hsteps with ⟨-, hstep, -⟩ | ⟨rest, hrest, rfl⟩
      · exact .inl hstep
      · rw [List.mem_append, List.mem_singleton, not_or] at hlater
        exact .inr ⟨⟨before, rest, hrest, hlater.1⟩, Ne.symm hlater.2⟩

/-! ### What the client is called with -/

/-- The client is called as it should be: the server is active, the connection is open, the tool
is exposed, as it was granted, the arguments are valid and fit, and the call has been authorized
with the grant of the tool. -/
structure Effective (c : MCPConnection num) (s : ConnectionState Num) (call : Call Num)
    (dispatch : Dispatch Num) : Prop where
  active : c.isKilled s = false
  opened : s.closed = false
  exposed : ∃ tool, c.exposed.get call.toolRegistrationDigest = some tool ∧
    GrantedFor c.pins c.authorize call.toolRegistrationDigest tool ∧
    dispatch.name = tool.toolName ∧
    tool.inputValidator (.object dispatch.arguments) = true ∧
    call.phase = .answered tool (.ok ⟨true, some tool.grantId⟩)
  fits : ∃ text, canonicalJsonStringify num (.object dispatch.arguments) = .ok text ∧
    (utf8Encode text).length ≤ c.limits.maxRequestBytes

theorem checkedArguments_ok {tool : BoundMCPTool Num} {input : Json Num}
    {members : List (JsString × Json Num)} (h : checkedArguments c tool input = .ok members) :
    tool.inputValidator (.object members) = true ∧
      ∃ text, canonicalJsonStringify num (.object members) = .ok text ∧
        (utf8Encode text).length ≤ c.limits.maxRequestBytes := by
  unfold checkedArguments at h
  split at h
  · cases h
  split at h
  · cases h
  rename_i text htext
  split at h
  · cases h
  rename_i hbytes
  split at h
  · cases h
  rename_i members' harguments
  split at h
  · cases h
  rename_i hvalid
  obtain rfl := Except.ok.inj h
  have hinput : input = .object members' := by
    unfold mcpCallArguments at harguments
    split at harguments
    · rw [Except.ok.inj harguments]
    · cases harguments
  subst hinput
  exact ⟨by simpa using hvalid, text, htext, not_lt.mp hbytes⟩

/-- **A call that calls the client** has its authorization, and arguments that pass. -/
theorem dispatch_eq_some {call : Call Num} {dispatch : Dispatch Num}
    (h : call.dispatch c = some dispatch) :
    ∃ tool, call.phase = .answered tool (.ok ⟨true, some tool.grantId⟩) ∧
      dispatch.name = tool.toolName ∧
      checkedArguments c tool call.input = .ok dispatch.arguments := by
  unfold Call.dispatch at h
  split at h
  · rename_i tool authorization hphase
    refine ⟨tool, ?_⟩
    unfold afterAuthorization at h
    split at h
    · cases h
    · rename_i authorization
      split at h
      · cases h
      rename_i hgranted
      split at h
      · cases h
      rename_i members hmembers
      split at h
      · cases h
      obtain rfl := Option.some.inj h
      obtain ⟨allowed, grantId⟩ := authorization
      simp only [not_or, Bool.not_eq_true', Bool.not_eq_false, not_not] at hgranted
      obtain ⟨rfl, rfl⟩ := hgranted
      exact ⟨hphase, rfl, hmembers⟩
  · cases h

/-- **A call that starts to wait** found the connection open, the server active and the tool
exposed. -/
theorem startCall_authorizing {digest : Digest} {tool : BoundMCPTool Num}
    (h : startCall c s digest = .authorizing tool) :
    s.closed = false ∧ c.isKilled s = false ∧ c.exposed.get digest = some tool := by
  unfold startCall at h
  split at h
  · cases h
  rename_i hopen
  split at h
  · cases h
  rename_i hactive
  split at h
  · cases h
  rename_i tool' htool
  obtain rfl := CallPhase.authorizing.inj h
  exact ⟨by simpa using hopen, by simpa using hactive, htool⟩

/-- **A wait that is not interrupted** ends with the connection open and the server active. -/
theorem not_interrupted_iff {start : List (MCPStep Num)} {digest : Digest} {input : Json Num}
    {tool : BoundMCPTool Num} (h : startCall c (c.run s start) digest = .authorizing tool) :
    ¬ Interrupted c waiting ↔
      (c.run s (start ++ .callTool digest input :: waiting)).closed = false ∧
        c.isKilled (c.run s (start ++ .callTool digest input :: waiting)) = false := by
  obtain ⟨hopen, hactive, -⟩ := startCall_authorizing h
  have hrun : c.run s (start ++ .callTool digest input :: waiting) =
      c.run (c.step (c.run s start) (.callTool digest input)) waiting := by
    simp [MCPConnection.run]
  have hclosed : (c.run (c.step (c.run s start) (.callTool digest input)) waiting).closed = true ↔
      .close ∈ waiting := closed_of_run hopen
  unfold MCPConnection.isKilled at hactive ⊢
  rw [hrun, Interrupted, not_or, ← hclosed, Bool.not_eq_true]
  refine and_congr_right fun _ => ?_
  cases hregistry : c.hasKillSwitches with
  | false => simp
  | true =>
    have hinactive : c.target ∉ (c.step (c.run s start) (.callTool digest input)).killSwitches := by
      simpa [hregistry, MCPConnection.step] using hactive
    rw [← killed_of_run hinactive]
    simp

/-- The state of a connection that has just been made. -/
def connected (killSwitches : KillSwitches) : ConnectionState Num :=
  ⟨killSwitches, false, []⟩

/-- In a run the client is called as it should be, whenever it is called. -/
def EffectiveAlong (c : MCPConnection num) (s : ConnectionState Num)
    (steps : List (MCPStep Num)) : Prop :=
  ∀ before i later call dispatch, steps = before ++ .advance i .resume :: later →
    (c.run s before).calls[i]? = some call → call.dispatch c = some dispatch →
    Effective c (c.run s before) call dispatch

/-- **What holds when the client is called, and when.**  In a run of a connection the client is
called as it should be, every time, exactly if no call that gets to call it was interrupted while
it waited for its authorization. -/
theorem callTool_effective_iff (c : MCPConnection num) (killSwitches : KillSwitches)
    (steps : List (MCPStep Num)) :
    EffectiveAlong c (connected killSwitches) steps ↔
      ∀ start digest input waiting later call dispatch,
        steps = start ++ .callTool digest input ::
          (waiting ++ .advance (c.run (connected killSwitches) start).calls.length .resume :: later) →
        (c.run (connected killSwitches)
          (start ++ .callTool digest input :: waiting)).calls[
            (c.run (connected killSwitches) start).calls.length]? = some call →
        call.dispatch c = some dispatch → ¬ Interrupted c waiting := by
  constructor
  · intro h start digest input waiting later call dispatch hsteps hcall hdispatch
    have heffective := h (start ++ .callTool digest input :: waiting) _ later call dispatch
      (by rw [hsteps]; simp) hcall hdispatch
    obtain ⟨tool, hphase, -, -⟩ := dispatch_eq_some hdispatch
    obtain ⟨hstart, -⟩ := tool_of_run hcall (by rw [hphase]; rfl)
    exact (not_interrupted_iff hstart).mpr ⟨heffective.opened, heffective.active⟩
  · intro h before i later call dispatch hsteps hcall hdispatch
    obtain ⟨start, digest, input, waiting, rfl, rfl⟩ := exists_start rfl hcall
    obtain ⟨tool, hphase, hname, harguments⟩ := dispatch_eq_some hdispatch
    obtain ⟨hstart, rfl⟩ := tool_of_run hcall (by rw [hphase]; rfl)
    have hquiet := h start _ input waiting later call dispatch (by rw [hsteps]; simp) hcall
      hdispatch
    obtain ⟨hvalid, hfits⟩ := checkedArguments_ok harguments
    obtain ⟨-, -, hget⟩ := startCall_authorizing hstart
    obtain ⟨hopen, hactive⟩ := (not_interrupted_iff hstart).mp hquiet
    exact ⟨hactive, hopen,
      ⟨tool, hget, exposeTools_granted c.exposes hget, hname, hvalid, hphase⟩, hfits⟩

/-- A tool that is exposed for a grant, whatever its arguments. -/
def sampleTool : BoundMCPTool SampleNumber where
  toolName := lit "read"
  requiredScopes := []
  pinDigest := "pin"
  grantId := "grant"
  inputValidator := fun _ => true
  outputValidator := none

/-- A connection to a server with one tool. -/
def sampleConnection : MCPConnection SampleNumber.format where
  limits := ⟨1024, 1024, 1, by decide, by decide, by decide⟩
  serverIdentityDigest := "server"
  hasKillSwitches := true
  fromJSONSchema := fun _ => .ok fun _ => true
  discovered := [⟨lit "read", "input", "output", .object [], none⟩]
  pins := [⟨lit "read", "registration", "input", "output", "pin", ["support"], []⟩]
  purposeCode := "support"
  authorize := fun _ => .ok ⟨true, some "grant"⟩
  exposed := OrderedMap.empty.set "registration" sampleTool
  exposes := rfl

/-- A call that waits for its authorization while something else happens. -/
def sampleRun (meanwhile : MCPStep SampleNumber) : List (MCPStep SampleNumber) :=
  [.callTool "registration" (.object []), meanwhile,
    .advance 0 (.answer (.ok ⟨true, some "grant"⟩)), .advance 0 .resume]

/-- **The client is called** for a server that is killed, and on a connection that is closed. -/
theorem callTool_not_rechecked :
    ¬ EffectiveAlong sampleConnection (connected []) (sampleRun (.activate (.mcp_server, "server"))) ∧
      ¬ EffectiveAlong sampleConnection (connected []) (sampleRun .close) := by
  let call : Call SampleNumber :=
    ⟨"registration", .object [], false, .answered sampleTool (.ok ⟨true, some "grant"⟩)⟩
  have htext : canonicalJsonStringify SampleNumber.format (.object []) = .ok [123, 125] := by
    simp [canonicalJsonStringify, canonicalize, canonicalizeMembers, JsString.joinComma]
    rfl
  have hbytes : (utf8Encode [123, 125]).length = 2 := by
    simp [utf8Encode, codePointBytes, isHighSurrogate, isLowSurrogate]
  have hdispatch : call.dispatch sampleConnection = some ⟨lit "read", []⟩ := by
    simp [Call.dispatch, call, afterAuthorization, sampleTool, checkedArguments, htext, hbytes,
      jsonAccepts, membersAccepted, sampleConnection, mcpCallArguments, Except.toOption]
  constructor
  · intro h
    have heffective := h ((sampleRun (.activate (.mcp_server, "server"))).dropLast) 0 [] call _ rfl
      rfl hdispatch
    exact absurd heffective.active (by decide)
  · intro h
    have heffective := h ((sampleRun .close).dropLast) 0 [] call _ rfl rfl hdispatch
    exact absurd heffective.opened (by decide)

end Mcp

end Pactmark
