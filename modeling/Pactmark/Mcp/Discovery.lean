import Pactmark.Core.Digests
import Pactmark.Core.Encodings

/-!
# Mcp — the discovery of tools

`discoverTools` of `mcp/src/adapter.ts`.  A server answers each request from a state of its own,
whatever it was asked before.  A page that has a cursor has room for it in its canonical JSON, so
no more cursors can follow each other than there are texts of that size.

* `cursor_length_le`: a cursor is no longer than the page it is in.
* `cursors_length_le`: distinct texts of bounded length are boundedly many.
* `discoverTools_bounded`: discovery ends, with as many tools as the profile allows.
-/

namespace Pactmark

open Durable
open JsString (lit)

namespace Mcp

/-- The error codes of `errors.ts` that are modelled. -/
inductive MCPErrorCode where
  | KAF_MCP_ABORTED
  | KAF_MCP_CONNECTION_FAILED
  | KAF_MCP_EXPOSURE_DENIED
  | KAF_MCP_LIMIT_EXCEEDED
  | KAF_MCP_MALFORMED_RESPONSE
  | KAF_MCP_SERVER_KILLED
  | KAF_MCP_TOOL_INPUT_INVALID
  | KAF_MCP_TOOL_NOT_EXPOSED
  | KAF_MCP_TOOL_OUTPUT_INVALID
  | KAF_MCP_TOOL_SCHEMA_DRIFT
  deriving DecidableEq, Repr

/-- What the adapter throws: an `MCPAdapterError`, the error of a canonical text, or what a
collaborator throws. -/
inductive MCPFailure where
  | adapter (code : MCPErrorCode) (message : String)
  | canonical (error : CanonicalJsonError)
  | thrown (error : Thrown)
  deriving DecidableEq

/-- The limits of an `MCPTransportSecurityProfile`. -/
structure MCPLimits where
  maxRequestBytes : Nat
  maxResponseBytes : Nat
  maxTools : Nat
  maxRequestBytes_range : 0 < maxRequestBytes ∧ maxRequestBytes ≤ 16 * 1024 * 1024
  maxResponseBytes_range : 0 < maxResponseBytes ∧ maxResponseBytes ≤ 16 * 1024 * 1024
  maxTools_range : 0 < maxTools ∧ maxTools ≤ 10000

variable {Num : Type}

/-- The value of a property of an object. -/
def property (members : List (JsString × Json Num)) (name : String) : Option (Json Num) :=
  (members.find? fun m => m.1 = lit name).map Prod.snd

mutual

/-- `JsonValueSchema`: the numbers are finite. -/
def jsonAccepts (num : NumberFormat Num) : Json Num → Bool
  | .number x => num.isFinite x
  | .array items => itemsAccepted num items
  | .object members => membersAccepted num members
  | _ => true

def itemsAccepted (num : NumberFormat Num) : List (Json Num) → Bool
  | [] => true
  | v :: items => jsonAccepts num v && itemsAccepted num items

def membersAccepted (num : NumberFormat Num) : List (JsString × Json Num) → Bool
  | [] => true
  | (_, v) :: members => jsonAccepts num v && membersAccepted num members

end

/-- What the adapter reads of a tool. -/
structure ToolMetadata (Num : Type) where
  name : JsString
  inputSchema : Json Num
  outputSchema : Option (Json Num)

/-- `description: z.string().max(100_000).optional()` -/
def descriptionAccepts : Option (Json Num) → Bool
  | none => true
  | some (.string description) => description.length ≤ 100000
  | some _ => false

/-- `JsonObjectSchema.optional()`, of the output schema. -/
def parseOutputSchema (num : NumberFormat Num) :
    Option (Json Num) → Option (Option (Json Num))
  | none => some none
  | some (.object members) =>
      if membersAccepted num members then some (some (.object members)) else none
  | some _ => none

/-- `MCPToolSchema`. -/
def parseTool (num : NumberFormat Num) : Json Num → Option (ToolMetadata Num)
  | .object members =>
      match property members "name", property members "inputSchema",
        parseOutputSchema num (property members "outputSchema") with
      | some (.string name), some (.object inputSchema), some outputSchema =>
          if name.isEmpty || decide (128 < name.length) ||
              !descriptionAccepts (property members "description") ||
              !membersAccepted num inputSchema ||
              !(property members "annotations").all (jsonAccepts num) ||
              !(property members "_meta").all (jsonAccepts num) then none
          else some ⟨name, .object inputSchema, outputSchema⟩
      | _, _, _ => none
  | _ => none

/-- What the adapter reads of a page. -/
structure ToolPage (Num : Type) where
  tools : List (ToolMetadata Num)
  nextCursor : Option JsString

/-- `nextCursor: z.string().min(1).optional()` -/
def parseCursor : Option (Json Num) → Option (Option JsString)
  | none => some none
  | some (.string cursor) => if cursor.isEmpty then none else some (some cursor)
  | some _ => none

/-- `MCPToolPageSchema`. -/
def parsePage (num : NumberFormat Num) : Json Num → Option (ToolPage Num)
  | .object members =>
      match property members "tools", parseCursor (property members "nextCursor") with
      | some (.array items), some nextCursor =>
          (items.mapM (parseTool num)).map fun tools => ⟨tools, nextCursor⟩
      | _, _ => none
  | _ => none

/-- `boundedJson`. -/
def boundedJson (num : NumberFormat Num) (value : Json Num) (maximumBytes : Nat)
    (operation : String) : Except MCPFailure Unit :=
  if !jsonAccepts num value then
    .error (.adapter .KAF_MCP_MALFORMED_RESPONSE (operation ++ " returned non-JSON data"))
  else
    match canonicalJsonStringify num value with
    | .error e => .error (.canonical e)
    | .ok text =>
        if maximumBytes < (utf8Encode text).length then
          .error (.adapter .KAF_MCP_LIMIT_EXCEEDED (operation ++ " exceeded its byte limit"))
        else .ok ()

/-- A response to `tools/list`: the units of a cursor are those of a string. -/
structure ToolsResponse (num : NumberFormat Num) where
  value : Json Num
  units : ∀ page ∈ parsePage num value, ∀ cursor ∈ page.nextCursor, ∀ unit ∈ cursor,
    unit < 0x10000

/-- A server, from what it remembers: `client.listTools`, which may throw. -/
structure ToolServer (num : NumberFormat Num) where
  State : Type
  listTools : State → Option JsString → Except Thrown (ToolsResponse num) × State

/-- A `DiscoveredTool`. -/
structure DiscoveredTool (Num : Type) where
  name : JsString
  inputSchemaDigest : Digest
  outputSchemaDigest : Digest
  inputSchema : Json Num
  outputSchema : Option (Json Num)

/-- `digestCanonicalJson`, as it throws. -/
def digestOf (H : Hashing Num) (value : Json Num) : Except MCPFailure Digest :=
  (H.digestCanonicalJson value).mapError .canonical

/-- `mcpToolSchemaDigest`. -/
def mcpToolSchemaDigest (H : Hashing Num) (schema : Json Num) : Except MCPFailure Digest :=
  digestOf H (.record [("identityFormat", .text "pactmark.mcp-json-schema@1"), ("schema", schema)])

/-- `mcpToolOutputSchemaDigest`. -/
def mcpToolOutputSchemaDigest (H : Hashing Num) : Option (Json Num) → Except MCPFailure Digest
  | none => digestOf H (.record [("identityFormat", .text "pactmark.mcp-output-schema-absent@1")])
  | some schema => mcpToolSchemaDigest H schema

/-- The variables of `discoverTools` at the head of its loop; `names` are those of the tools. -/
structure Discovery (Num : Type) where
  tools : List (DiscoveredTool Num)
  cursors : List JsString
  cursor : Option JsString

/-- The names of tools. -/
def toolNames (tools : List (DiscoveredTool Num)) : List JsString :=
  tools.map DiscoveredTool.name

/-- The loop over the tools of a page. -/
def addTools (H : Hashing Num) (limits : MCPLimits) (tools : List (DiscoveredTool Num)) :
    List (ToolMetadata Num) → Except MCPFailure (List (DiscoveredTool Num))
  | [] => .ok tools
  | tool :: rest =>
      if tool.name ∈ toolNames tools then
        throw (.adapter .KAF_MCP_MALFORMED_RESPONSE
          "MCP tools/list returned a duplicate tool name")
      else do
        let inputSchemaDigest ← mcpToolSchemaDigest H tool.inputSchema
        let outputSchemaDigest ← mcpToolOutputSchemaDigest H tool.outputSchema
        let tools := tools ++
          [⟨tool.name, inputSchemaDigest, outputSchemaDigest, tool.inputSchema,
            tool.outputSchema⟩]
        if limits.maxTools < tools.length then
          throw (.adapter .KAF_MCP_LIMIT_EXCEEDED
            "MCP discovery exceeded the configured tool limit")
        else addTools H limits tools rest

/-- The body of the loop, after the response. -/
def readPage (H : Hashing Num) (limits : MCPLimits) (d : Discovery Num)
    (response : Json Num) : Except MCPFailure (Discovery Num) :=
  match parsePage H.num response with
  | none =>
      throw (.adapter .KAF_MCP_MALFORMED_RESPONSE "MCP tools/list returned a malformed response")
  | some page => do
      boundedJson H.num response limits.maxResponseBytes "MCP tools/list"
      let tools ← addTools H limits d.tools page.tools
      match page.nextCursor with
      | none => return { tools, cursors := d.cursors, cursor := none }
      | some cursor =>
          if cursor ∈ d.cursors then
            throw (.adapter .KAF_MCP_MALFORMED_RESPONSE
              "MCP discovery returned a repeated cursor")
          else return { tools, cursors := d.cursors ++ [cursor], cursor := some cursor }

/-- The loop of `discoverTools` for some rounds: what it returns or throws, if it does, and how
many requests it makes. -/
def discoverRounds (H : Hashing Num) (limits : MCPLimits) (server : ToolServer H.num) :
    Nat → server.State → Discovery Num →
      Option (Except MCPFailure (List (DiscoveredTool Num))) × Nat
  | 0, _, _ => (none, 0)
  | rounds + 1, s, d =>
      match server.listTools s d.cursor with
      | (.error e, _) => (some (.error (.thrown e)), 1)
      | (.ok response, s) =>
          match readPage H limits d response.value with
          | .error e => (some (.error e), 1)
          | .ok d =>
              match d.cursor with
              | none => (some (.ok d.tools), 1)
              | some _ =>
                  let (result, requests) := discoverRounds H limits server rounds s d
                  (result, requests + 1)

/-- `discoverTools`, for some rounds. -/
def discoverTools (H : Hashing Num) (limits : MCPLimits) (server : ToolServer H.num) (rounds : Nat)
    (s : server.State) : Option (Except MCPFailure (List (DiscoveredTool Num))) × Nat :=
  discoverRounds H limits server rounds s ⟨[], [], none⟩

/-! ### A cursor fits into its page -/

theorem length_le_utf8Encode (text : JsString) : text.length ≤ (utf8Encode text).length := by
  have hbytes : ∀ point, 1 ≤ (codePointBytes point).length := by
    intro point
    unfold codePointBytes
    split_ifs <;> simp
  have hpair : ∀ point, 0x10000 ≤ point → (codePointBytes point).length = 4 := by
    intro point hpoint
    unfold codePointBytes
    rw [if_neg (by omega), if_neg (by omega), if_neg (by omega)]
    rfl
  fun_induction utf8Encode text with
  | case1 => simp
  | case2 unit hunit next rest hnext ih =>
    have := hpair (0x10000 + (unit - 0xd800) * 0x400 + (next - 0xdc00)) (by omega)
    simp only [List.length_cons, List.length_append]
    omega
  | case3 unit hunit next rest hnext ih =>
    have := hbytes 0xfffd
    simp only [List.length_cons, List.length_append] at ih ⊢
    omega
  | case4 unit hunit => exact hbytes 0xfffd
  | case5 unit rest hhigh hlow ih =>
    have := hbytes 0xfffd
    simp only [List.length_cons, List.length_append] at ih ⊢
    omega
  | case6 unit rest hhigh hlow ih =>
    have := hbytes unit
    simp only [List.length_cons, List.length_append] at ih ⊢
    omega

theorem length_le_stringifyString (s : JsString) : s.length ≤ (stringifyString s).length := by
  have hunit : ∀ unit, 1 ≤ (escapeUnit unit).length := by
    intro unit
    unfold escapeUnit
    split_ifs <;> simp [lit]
  have hflat : s.length ≤ (s.flatMap escapeUnit).length := by
    induction s with
    | nil => simp
    | cons unit s ih =>
      have := hunit unit
      simp only [List.flatMap_cons, List.length_cons, List.length_append]
      omega
  simp only [stringifyString, List.length_cons, List.length_append]
  omega

theorem length_le_joinComma {entry : JsString} {entries : List JsString} (h : entry ∈ entries) :
    entry.length ≤ (JsString.joinComma entries).length := by
  fun_induction JsString.joinComma entries with
  | case1 => cases h
  | case2 s =>
    rw [List.mem_singleton.mp h]
  | case3 s entries hne ih =>
    simp only [List.length_append, List.length_cons]
    rcases List.mem_cons.mp h with rfl | h
    · omega
    · have := ih h
      omega

/-- **A cursor is no longer** than the canonical text of the page it is in. -/
theorem cursor_length_le {num : NumberFormat Num} {response : Json Num} {page : ToolPage Num}
    {cursor text : JsString} (hpage : parsePage num response = some page)
    (hcursor : page.nextCursor = some cursor)
    (htext : canonicalJsonStringify num response = .ok text) : cursor.length ≤ text.length := by
  unfold parsePage at hpage
  split at hpage
  · rename_i members
    split at hpage
    · rename_i items nextCursor htools hnext
      obtain ⟨tools, -, rfl⟩ := Option.map_eq_some_iff.mp hpage
      obtain rfl : nextCursor = some cursor := hcursor
      have hproperty : property members "nextCursor" = some (.string cursor) := by
        unfold parseCursor at hnext
        split at hnext
        · cases hnext
        · rename_i c hc
          split at hnext
          · cases hnext
          · obtain rfl := Option.some.inj (Option.some.inj hnext)
            exact hc
        · cases hnext
      obtain ⟨m, hm, hvalue⟩ := Option.map_eq_some_iff.mp hproperty
      have hmember := List.mem_of_find?_eq_some hm
      unfold canonicalJsonStringify at htext
      rw [canonicalize] at htext
      obtain ⟨fields, hfields, htext⟩ := bind_eq_ok.mp htext
      obtain rfl := Except.ok.inj htext
      have hsorted : (m.1, Json.field num (lit "$") m.1 m.2) ∈
          (canonicalizeMembers num (lit "$") members).mergeSort (keyLE ·.1 ·.1) := by
        rw [(List.mergeSort_perm _ _).mem_iff, Json.canonicalizeMembers_eq_map]
        exact List.mem_map_of_mem hmember
      obtain ⟨fieldText, hfieldText, hfield⟩ := exists_of_mapM_ok hfields hsorted
      obtain ⟨name, -, hfield⟩ := bind_eq_ok.mp hfield
      obtain ⟨valueText, hvalueText, hfield⟩ := bind_eq_ok.mp hfield
      obtain rfl := Except.ok.inj hfield
      rw [hvalue, canonicalize] at hvalueText
      obtain ⟨-, -, hquote⟩ := bind_eq_ok.mp hvalueText
      obtain rfl := Except.ok.inj hquote
      have hlong := length_le_joinComma hfieldText
      have hstring := length_le_stringifyString cursor
      simp only [List.length_append] at hlong ⊢
      omega
    · cases hpage
  · cases hpage

/-! ### Distinct cursors -/

/-- The number of a text, of which another one has no other. -/
def textNumber (text : JsString) : Nat :=
  text.foldr (fun unit n => n * 0x10001 + (unit + 1)) 0

theorem textNumber_lt {text : JsString} (h : ∀ unit ∈ text, unit < 0x10000) :
    textNumber text < 0x10001 ^ text.length := by
  induction text with
  | nil => simp [textNumber]
  | cons unit text ih =>
    obtain ⟨hunit, htext⟩ := List.forall_mem_cons.mp h
    have hrest := ih htext
    unfold textNumber at hrest ⊢
    rw [List.foldr_cons, List.length_cons, Nat.pow_succ]
    omega

theorem textNumber_inj {a b : JsString} (ha : ∀ unit ∈ a, unit < 0x10000)
    (hb : ∀ unit ∈ b, unit < 0x10000) (h : textNumber a = textNumber b) : a = b := by
  induction a generalizing b with
  | nil =>
    cases b with
    | nil => rfl
    | cons unit b =>
      simp only [textNumber, List.foldr_nil, List.foldr_cons] at h
      omega
  | cons unit a ih =>
    cases b with
    | nil =>
      simp only [textNumber, List.foldr_nil, List.foldr_cons] at h
      omega
    | cons unit' b =>
      obtain ⟨hunit, ha⟩ := List.forall_mem_cons.mp ha
      obtain ⟨hunit', hb⟩ := List.forall_mem_cons.mp hb
      simp only [textNumber, List.foldr_cons] at h ih
      have hrest := ih ha hb (by omega)
      subst hrest
      rw [show unit = unit' by omega]

/-- How many requests a discovery makes at most. -/
def requestBound (limits : MCPLimits) : Nat :=
  0x10001 ^ limits.maxResponseBytes + 1

/-- **Distinct texts** of bounded length are boundedly many. -/
theorem cursors_length_le {cursors : List JsString} {maximum : Nat} (hnodup : cursors.Nodup)
    (h : ∀ cursor ∈ cursors, cursor.length ≤ maximum ∧ ∀ unit ∈ cursor, unit < 0x10000) :
    cursors.length ≤ 0x10001 ^ maximum := by
  have hnumbers : (cursors.map textNumber).Nodup :=
    hnodup.map_on fun a ha b hb hab => textNumber_inj (h a ha).2 (h b hb).2 hab
  have hrange : cursors.map textNumber ⊆ List.range (0x10001 ^ maximum) := by
    intro n hn
    obtain ⟨cursor, hcursor, rfl⟩ := List.mem_map.mp hn
    obtain ⟨hlength, hunits⟩ := h cursor hcursor
    exact List.mem_range.mpr
      ((textNumber_lt hunits).trans_le (Nat.pow_le_pow_right (by omega) hlength))
  have hle := (List.subperm_of_subset hnumbers hrange).length_le
  rwa [List.length_map, List.length_range] at hle

/-! ### The loop -/

variable {H : Hashing Num} {limits : MCPLimits}

/-- The tools are as many as the profile allows, with distinct names, and the cursors are distinct
texts that fit into a page. -/
structure Discovery.Bounded (limits : MCPLimits) (d : Discovery Num) : Prop where
  names : (toolNames d.tools).Nodup
  tools : d.tools.length ≤ limits.maxTools
  nodup : d.cursors.Nodup
  cursors : ∀ cursor ∈ d.cursors,
    cursor.length ≤ limits.maxResponseBytes ∧ ∀ unit ∈ cursor, unit < 0x10000

/-- The tools of a page are added within the limit, under new names. -/
theorem addTools_ok {page : List (ToolMetadata Num)} {tools tools' : List (DiscoveredTool Num)}
    (h : addTools H limits tools page = .ok tools') (hnames : (toolNames tools).Nodup)
    (hlength : tools.length ≤ limits.maxTools) :
    (toolNames tools').Nodup ∧ tools'.length ≤ limits.maxTools := by
  induction page generalizing tools with
  | nil =>
    obtain rfl := Except.ok.inj h
    exact ⟨hnames, hlength⟩
  | cons tool rest ih =>
    unfold addTools at h
    split at h
    · cases h
    rename_i hnew
    obtain ⟨inputSchemaDigest, -, h⟩ := bind_eq_ok.mp h
    obtain ⟨outputSchemaDigest, -, h⟩ := bind_eq_ok.mp h
    dsimp only at h
    split at h
    · cases h
    rename_i hlimit
    refine ih h ?_ (not_lt.mp hlimit)
    unfold toolNames at hnames hnew ⊢
    rw [List.map_append, List.map_singleton]
    exact List.nodup_append_comm.mp (List.nodup_cons.mpr ⟨hnew, hnames⟩)

/-- **A page that is read** has no cursor, or another one than all before it. -/
theorem readPage_ok {d d' : Discovery Num} {response : ToolsResponse H.num}
    (h : readPage H limits d response.value = .ok d') (hd : d.Bounded limits) :
    d'.Bounded limits ∧
      (d'.cursor = none ∨ d'.cursors.length = d.cursors.length + 1) := by
  unfold readPage at h
  split at h
  · cases h
  rename_i page hpage
  obtain ⟨u, hbounded, h⟩ := bind_eq_ok.mp h
  obtain ⟨tools, htools, h⟩ := bind_eq_ok.mp h
  obtain ⟨hnames, hlength⟩ := addTools_ok htools hd.names hd.tools
  split at h
  · obtain rfl := Except.ok.inj h
    exact ⟨⟨hnames, hlength, hd.nodup, hd.cursors⟩, .inl rfl⟩
  · rename_i cursor hcursor
    split at h
    · cases h
    rename_i hnew
    obtain rfl := Except.ok.inj h
    have hfits : cursor.length ≤ limits.maxResponseBytes := by
      unfold boundedJson at hbounded
      split at hbounded
      · cases hbounded
      split at hbounded
      · cases hbounded
      · rename_i text htext
        split at hbounded
        · cases hbounded
        · rename_i hbytes
          have := cursor_length_le hpage hcursor htext
          have := length_le_utf8Encode text
          omega
    refine ⟨⟨hnames, hlength, List.nodup_append_comm.mp (List.nodup_cons.mpr ⟨hnew, hd.nodup⟩),
      fun c hc => ?_⟩, .inr (by simp)⟩
    rcases List.mem_append.mp hc with hold | hlast
    · exact hd.cursors c hold
    · obtain rfl := List.mem_singleton.mp hlast
      exact ⟨hfits, response.units page hpage c hcursor⟩

/-- **The loop ends** before its rounds do, if there is one for every cursor that can still come. -/
theorem discoverRounds_ends {server : ToolServer H.num} {rounds : Nat} {s : server.State}
    {d : Discovery Num} (hd : d.Bounded limits)
    (hrounds : requestBound limits ≤ rounds + d.cursors.length) :
    ∃ result, (discoverRounds H limits server rounds s d).1 = some result ∧
      (discoverRounds H limits server rounds s d).2 + d.cursors.length ≤ requestBound limits ∧
      ∀ tools, result = .ok tools →
        tools.length ≤ limits.maxTools ∧ (toolNames tools).Nodup := by
  induction rounds generalizing s d with
  | zero =>
    have hcursors := cursors_length_le hd.nodup hd.cursors
    unfold requestBound at hrounds
    omega
  | succ rounds ih =>
    have hcursors : d.cursors.length < requestBound limits :=
      Nat.lt_succ_of_le (cursors_length_le hd.nodup hd.cursors)
    unfold discoverRounds
    split
    · exact ⟨_, rfl, by dsimp only; omega, nofun⟩
    rename_i response s' hresponse
    split
    · exact ⟨_, rfl, by dsimp only; omega, nofun⟩
    rename_i d' hpage
    obtain ⟨hd', hnext⟩ := readPage_ok hpage hd
    split
    · refine ⟨_, rfl, by dsimp only; omega, fun tools htools => ?_⟩
      obtain rfl := Except.ok.inj htools
      exact ⟨hd'.tools, hd'.names⟩
    · rename_i cursor hcursor
      have hmore : d'.cursors.length = d.cursors.length + 1 :=
        hnext.resolve_left (by rw [hcursor]; exact Option.some_ne_none cursor)
      obtain ⟨result, hresult, hrequests, htools⟩ := ih (s := s') hd' (by omega)
      exact ⟨result, hresult, by dsimp only; omega, htools⟩

/-- **Discovery is bounded**: whatever a server answers, it ends within a number of requests that
depends on the profile only, with as many tools as the profile allows and no name twice, or
throws. -/
theorem discoverTools_bounded (H : Hashing Num) (limits : MCPLimits) (server : ToolServer H.num)
    (s : server.State) (extra : Nat) :
    ∃ result, (discoverTools H limits server (requestBound limits + extra) s).1 = some result ∧
      (discoverTools H limits server (requestBound limits + extra) s).2 ≤ requestBound limits ∧
      ∀ tools, result = .ok tools →
        tools.length ≤ limits.maxTools ∧ (toolNames tools).Nodup := by
  have hempty : (⟨[], [], none⟩ : Discovery Num).Bounded limits :=
    ⟨List.nodup_nil, Nat.zero_le _, List.nodup_nil, nofun⟩
  exact discoverRounds_ends hempty (Nat.le_add_right _ _)

end Mcp

end Pactmark
