import Hseos.Contracts.Compaction

/-! # Records and their canonical texts

Valid messages and requests with the same canonical text are equal. This is what
makes a comparison of canonical texts a comparison of records.
-/

namespace Hseos

theorem faithful_canonicalObject :
    Faithful (fun value : Json => value.canonicalObject = true) id := by
  refine Faithful.self.mono ?_
  intro value h
  cases value with
  | obj members =>
      simp only [Json.canonicalObject, Json.canonical, Bool.and_eq_true, decide_eq_true_eq] at h
      exact ⟨h.1.1, h.2⟩
  | _ => simp [Json.canonicalObject] at h

theorem faithful_texts {check : String → Bool} :
    Faithful (fun _ => True) (Json.ofTexts : List (Refined check) → Json) :=
  Faithful.refined.arr.mono fun _ _ _ _ => trivial

/-! ## Messages -/

theorem Role.text_injective {a b : Role} (h : a.text = b.text) : a = b := by
  cases a <;> cases b <;> first | rfl | exact absurd h (by decide)

def AgentToolCall.valid (call : AgentToolCall) : Prop := call.input.canonicalObject = true

theorem faithful_toolCall : Faithful AgentToolCall.valid AgentToolCall.toJson := by
  have hwellFormed : ∀ {call : AgentToolCall}, call.valid → call.toJson.wellFormed = true := by
    intro call h
    have hinput := faithful_canonicalObject.wellFormed h
    simpa [AgentToolCall.toJson, Json.wellFormed, Json.wellFormedMembers, Json.ofText] using hinput
  refine ⟨hwellFormed, ?_⟩
  intro a b ha hb h
  have hfield := h.field? (hwellFormed ha) (hwellFormed hb)
  obtain ⟨idA, nameA, inputA⟩ := a
  obtain ⟨idB, nameB, inputB⟩ := b
  have hid := Faithful.refined.member trivial trivial rfl rfl (hfield "tool_call_id")
  have hname := Faithful.refined.member trivial trivial rfl rfl (hfield "name")
  have hinput := faithful_canonicalObject.member ha hb rfl rfl (hfield "input")
  dsimp only at hid hname hinput
  rw [hid, hname, hinput]

namespace AgentMessage

variable (message : AgentMessage)

@[simp] theorem field?_role : message.toJson.field? "role" = some (.str message.role.text) := rfl

@[simp] theorem field?_content : message.toJson.field? "content" = some (.str message.content) := rfl

@[simp] theorem field?_name : message.toJson.field? "name" = message.name.map .ofText := by
  cases hname : message.name <;> cases hid : message.toolCallId <;>
    cases hcalls : message.toolCalls <;> simp [toJson, Json.field?, Json.member?, hname, hid, hcalls]

@[simp] theorem field?_toolCallId :
    message.toJson.field? "tool_call_id" = message.toolCallId.map .ofText := by
  cases hname : message.name <;> cases hid : message.toolCallId <;>
    cases hcalls : message.toolCalls <;> simp [toJson, Json.field?, Json.member?, hname, hid, hcalls]

@[simp] theorem field?_toolCalls : message.toJson.field? "tool_calls" =
    message.toolCalls.map fun calls => .arr (calls.map AgentToolCall.toJson) := by
  cases hname : message.name <;> cases hid : message.toolCallId <;>
    cases hcalls : message.toolCalls <;> simp [toJson, Json.field?, Json.member?, hname, hid, hcalls]

end AgentMessage

theorem AgentMessage.toolCalls_valid {message : AgentMessage} (h : message.valid = true) :
    ∀ calls ∈ message.toolCalls, ∀ call ∈ calls, call.valid := by
  intro calls hcalls call hcall
  rw [Option.mem_def] at hcalls
  simp only [AgentMessage.valid, hcalls, Option.getD_some, Bool.and_eq_true,
    List.all_eq_true] at h
  exact h.2 call hcall

theorem faithful_message :
    Faithful (fun message : AgentMessage => message.valid = true) AgentMessage.toJson := by
  have hwellFormed : ∀ {message : AgentMessage}, message.valid = true →
      message.toJson.wellFormed = true := by
    intro message h
    have hcalls : ∀ calls ∈ message.toolCalls,
        (Json.arr (calls.map AgentToolCall.toJson)).wellFormed = true := fun calls hmem =>
      faithful_toolCall.arr.wellFormed (message.toolCalls_valid h calls hmem)
    cases hname : message.name <;> cases hid : message.toolCallId <;>
      cases hsome : message.toolCalls <;>
      simp_all [AgentMessage.toJson, Json.wellFormed, Json.wellFormedMembers, Json.member?,
        Json.ofText]
  refine ⟨hwellFormed, ?_⟩
  intro a b ha hb h
  have hfield := h.field? (hwellFormed ha) (hwellFormed hb)
  have hrole := Role.text_injective (Faithful.str.member trivial trivial a.field?_role b.field?_role
    (hfield "role"))
  have hcontent := Faithful.str.member trivial trivial a.field?_content b.field?_content
    (hfield "content")
  have hname := Faithful.refined.member? (fun _ _ => trivial) (fun _ _ => trivial) a.field?_name
    b.field?_name (hfield "name")
  have hid := Faithful.refined.member? (fun _ _ => trivial) (fun _ _ => trivial)
    a.field?_toolCallId b.field?_toolCallId (hfield "tool_call_id")
  have hcalls := faithful_toolCall.arr.member? (a.toolCalls_valid ha) (b.toolCalls_valid hb)
    a.field?_toolCalls b.field?_toolCalls (hfield "tool_calls")
  obtain ⟨role, content, name, toolCallId, toolCalls⟩ := a
  dsimp only at hrole hcontent hname hid hcalls
  rw [hrole, hcontent, hname, hid, hcalls]

theorem faithful_messages :
    Faithful (fun messages : List AgentMessage => ∀ message ∈ messages, message.valid = true)
      messagesJson :=
  faithful_message.arr

theorem distinct_message {message : AgentMessage}
    (h : ∀ calls ∈ message.toolCalls, ∀ call ∈ calls, call.input.distinct = true) :
    message.toJson.distinct = true := by
  have hcalls : ∀ calls ∈ message.toolCalls,
      Json.distinctItems (calls.map AgentToolCall.toJson) = true := by
    intro calls hsome
    rw [Json.distinctItems_iff]
    intro item hitem
    obtain ⟨call, hcall, rfl⟩ := List.mem_map.mp hitem
    have hinput := h calls hsome call hcall
    simpa [AgentToolCall.toJson, Json.distinct, Json.distinctMembers, Json.ofText] using hinput
  cases hname : message.name <;> cases hid : message.toolCallId <;>
    cases hsome : message.toolCalls <;>
    simp_all [AgentMessage.toJson, Json.distinct, Json.distinctMembers, Json.member?, Json.ofText]

/-- A tool message of a valid list is in every list with the same text, even if the
tool calls of other messages carry infinities, which the text shows as `null`. -/
theorem tool_message_mem_of_canonicalJson_eq {first second : List AgentMessage}
    (hfirst : ∀ message ∈ first, message.valid = true)
    (hsecond : ∀ message ∈ second, message.toJson.distinct = true)
    (h : canonicalJson (messagesJson first) = canonicalJson (messagesJson second))
    {message : AgentMessage} (hmem : message ∈ first) (hrole : message.role = .tool) :
    message ∈ second := by
  have hshown : (messagesJson second).shown.wellFormed = true := by
    apply Json.wellFormed_shown
    rw [messagesJson, Json.distinct, Json.distinctItems_iff]
    intro item hitem
    obtain ⟨other, hother, rfl⟩ := List.mem_map.mp hitem
    exact hsecond other hother
  have hsame := sameUpToOrder_of_canonicalJson_eq (faithful_messages.wellFormed hfirst) hshown
    (h.trans (Json.textBy_shown sortMembers (messagesJson second)).symm)
  rw [messagesJson, messagesJson, Json.shown, Json.shownItems_eq_map, Json.SameUpToOrder,
    Json.sorted, Json.sorted, Json.arr.injEq, Json.sortedItems_eq_map, Json.sortedItems_eq_map,
    List.map_map, List.map_map, List.map_map] at hsame
  have himage := List.mem_map_of_mem (f := Json.sorted ∘ AgentMessage.toJson) hmem
  rw [hsame] at himage
  obtain ⟨other, hother, heq⟩ := List.mem_map.mp himage
  have hfield := Json.SameUpToOrder.field? (a := message.toJson) (b := other.toJson.shown) heq.symm
    (faithful_message.wellFormed (hfirst message hmem))
    (Json.wellFormed_shown _ (hsecond other hother))
  have hrole' := Role.text_injective (Faithful.str.member trivial trivial message.field?_role
    (by rw [Json.field?_shown, other.field?_role]; rfl) (hfield "role"))
  have hcontent := Faithful.str.member trivial trivial message.field?_content
    (by rw [Json.field?_shown, other.field?_content]; rfl) (hfield "content")
  have hname := Faithful.refined.member? (fun _ _ => trivial) (fun _ _ => trivial)
    message.field?_name (b := other.name)
    (by rw [Json.field?_shown, other.field?_name]; cases other.name <;> rfl) (hfield "name")
  have hid := Faithful.refined.member? (fun _ _ => trivial) (fun _ _ => trivial)
    message.field?_toolCallId (b := other.toolCallId)
    (by rw [Json.field?_shown, other.field?_toolCallId]; cases other.toolCallId <;> rfl)
    (hfield "tool_call_id")
  have hcalls : message.toolCalls = none := by
    have hvalid := hfirst message hmem
    simp only [AgentMessage.valid, Bool.and_eq_true, Bool.or_eq_true] at hvalid
    rcases hvalid.1.1.1.2 with hnone | hassistant
    · exact Option.isNone_iff_eq_none.mp hnone
    · rw [hrole] at hassistant
      cases hassistant
  have hcalls' : other.toolCalls = none := by
    have hnone := hfield "tool_calls"
    rw [message.field?_toolCalls, hcalls, Json.field?_shown, other.field?_toolCalls] at hnone
    simpa using hnone.symm
  have hsame : message = other := by
    obtain ⟨role, content, name, toolCallId, toolCalls⟩ := message
    obtain ⟨role', content', name', toolCallId', toolCalls'⟩ := other
    simp_all
  exact hsame ▸ hother

/-! ## Requests -/

theorem faithful_tool :
    Faithful (fun tool : ToolDefinition => tool.inputSchema.canonicalObject = true)
      ToolDefinition.toJson := by
  have hwellFormed : ∀ {tool : ToolDefinition}, tool.inputSchema.canonicalObject = true →
      tool.toJson.wellFormed = true := by
    intro tool h
    have hschema := faithful_canonicalObject.wellFormed h
    simpa [ToolDefinition.toJson, Json.wellFormed, Json.wellFormedMembers, Json.ofText] using hschema
  refine ⟨hwellFormed, ?_⟩
  intro a b ha hb h
  have hfield := h.field? (hwellFormed ha) (hwellFormed hb)
  obtain ⟨nameA, descriptionA, schemaA, governanceA⟩ := a
  obtain ⟨nameB, descriptionB, schemaB, governanceB⟩ := b
  have hname := Faithful.refined.member trivial trivial rfl rfl (hfield "name")
  have hdescription := Faithful.refined.member trivial trivial rfl rfl (hfield "description")
  have hschema := faithful_canonicalObject.member ha hb rfl rfl (hfield "input_schema")
  have hgovernance := Faithful.refined.member trivial trivial rfl rfl (hfield "governance_ref")
  dsimp only at hname hdescription hschema hgovernance
  rw [hname, hdescription, hschema, hgovernance]

/-- A finite number or `null`. -/
theorem faithful_temperature :
    Faithful (fun temperature : Option JsNumber => temperature.all (·.printed) = true)
      (Json.ofNullable .num) where
  wellFormed {temperature} h := by
    cases temperature with
    | none => rfl
    | some value =>
        cases value with
        | finite text => rfl
        | infinite negative => simp [JsNumber.printed] at h
  injective {a b} _ _ h := by
    cases a <;> cases b <;> simp_all [Json.SameUpToOrder, Json.ofNullable, Json.sorted]

theorem faithful_parameters :
    Faithful (fun parameters : ModelParameters => parameters.valid = true) ModelParameters.toJson := by
  have htemperature : ∀ {parameters : ModelParameters}, parameters.valid = true →
      parameters.temperature.all (·.printed) = true := by
    intro parameters h
    simp only [ModelParameters.valid, Bool.and_eq_true] at h
    obtain ⟨⟨⟨⟨-, h⟩, -⟩, -⟩, -⟩ := h
    cases hsome : parameters.temperature with
    | none => rfl
    | some value => simp_all
  have hwellFormed : ∀ {parameters : ModelParameters}, parameters.valid = true →
      parameters.toJson.wellFormed = true := by
    intro parameters h
    have hnumber := faithful_temperature.wellFormed (htemperature h)
    have hstop := (Faithful.str.arr).wellFormed (a := parameters.stop) fun _ _ => trivial
    have hoften : (Json.ofNat parameters.maxOutputTokens).wellFormed = true := rfl
    simp only [ModelParameters.toJson, Json.wellFormed, Json.wellFormedMembers, Json.ofStrings,
      hnumber, hoften]
    simpa [Json.wellFormed] using hstop
  refine ⟨hwellFormed, ?_⟩
  intro a b ha hb h
  have hfield := h.field? (hwellFormed ha) (hwellFormed hb)
  have htokens := Faithful.ofNat.member trivial trivial (a := a.maxOutputTokens)
    (b := b.maxOutputTokens) rfl rfl (hfield "max_output_tokens")
  have hnumber := faithful_temperature.member (htemperature ha) (htemperature hb) rfl rfl
    (hfield "temperature")
  have hstop := (Faithful.str.arr).member (a := a.stop) (b := b.stop) (fun _ _ => trivial)
    (fun _ _ => trivial) rfl rfl (hfield "stop")
  obtain ⟨maxOutputTokens, temperature, stop⟩ := a
  dsimp only at htokens hnumber hstop
  rw [htokens, hnumber, hstop]

namespace ModelRequest

variable {request : ModelRequest}

theorem messages_valid (h : request.valid = true) :
    ∀ message ∈ request.messages, message.valid = true := by
  simp only [valid, Bool.and_eq_true, List.all_eq_true] at h
  exact h.1.1.2

theorem tools_valid (h : request.valid = true) :
    ∀ tool ∈ request.tools, tool.inputSchema.canonicalObject = true := by
  simp only [valid, validTools, Bool.and_eq_true, List.all_eq_true] at h
  exact h.1.2.1

theorem parameters_valid (h : request.valid = true) : request.parameters.valid = true := by
  simp only [valid, Bool.and_eq_true] at h
  exact h.2

end ModelRequest

theorem faithful_request :
    Faithful (fun request : ModelRequest => request.valid = true) ModelRequest.toJson := by
  have hwellFormed : ∀ {request : ModelRequest}, request.valid = true →
      request.toJson.wellFormed = true := by
    intro request h
    have hmessages := faithful_messages.wellFormed (ModelRequest.messages_valid h)
    have htools := faithful_tool.arr.wellFormed (ModelRequest.tools_valid h)
    have hparameters := faithful_parameters.wellFormed (ModelRequest.parameters_valid h)
    have hversion : (Json.ofNat 1).wellFormed = true := rfl
    simp [ModelRequest.toJson, ModelRequest.members, Json.wellFormed, Json.wellFormedMembers,
      Json.ofText, hversion, hmessages, hparameters, show Json.wellFormedItems _ = true from htools]
  refine ⟨hwellFormed, ?_⟩
  intro a b ha hb h
  have hfield := h.field? (hwellFormed ha) (hwellFormed hb)
  have hrequest := Faithful.refined.member trivial trivial (a := a.requestId) (b := b.requestId)
    rfl rfl (hfield "request_id")
  have hsession := Faithful.refined.member trivial trivial (a := a.sessionId) (b := b.sessionId)
    rfl rfl (hfield "session_id")
  have hturn := Faithful.refined.member trivial trivial (a := a.turnId) (b := b.turnId)
    rfl rfl (hfield "turn_id")
  have hprovider := Faithful.refined.member trivial trivial (a := a.providerId) (b := b.providerId)
    rfl rfl (hfield "provider_id")
  have hmodel := Faithful.refined.member trivial trivial (a := a.model) (b := b.model)
    rfl rfl (hfield "model")
  have hmessages := faithful_messages.member (ModelRequest.messages_valid ha)
    (ModelRequest.messages_valid hb) rfl rfl (hfield "messages")
  have htools := faithful_tool.arr.member (ModelRequest.tools_valid ha)
    (ModelRequest.tools_valid hb) rfl rfl (hfield "tools")
  have hparameters := faithful_parameters.member (ModelRequest.parameters_valid ha)
    (ModelRequest.parameters_valid hb) rfl rfl (hfield "parameters")
  obtain ⟨requestId, sessionId, turnId, providerId, model, messages, tools, parameters⟩ := a
  dsimp only at hrequest hsession hturn hprovider hmodel hmessages htools hparameters
  rw [hrequest, hsession, hturn, hprovider, hmodel, hmessages, htools, hparameters]

theorem wellFormed_contentPart (part : ContentPart) : part.toJson.wellFormed = true := by
  cases part <;> simp [ContentPart.toJson, Json.wellFormed, Json.wellFormedMembers, Json.ofText,
    Json.ofNat]

/-- A request with the text of an assembled request is that request, and there are
no content parts. -/
theorem assembled_eq_of_canonicalJson_eq {request : ModelRequest} {assembled : ModelRequestV2}
    (hrequest : request.valid = true) (hassembled : assembled.valid = true)
    (h : canonicalJson request.toJson = canonicalJson assembled.toJson) :
    assembled = ⟨request, none⟩ := by
  obtain ⟨inner, parts⟩ := assembled
  simp only [ModelRequestV2.valid, Bool.and_eq_true] at hassembled
  have hinner := faithful_request.wellFormed hassembled.1
  cases parts with
  | none =>
      have htext : (ModelRequestV2.mk inner none).toJson = inner.toJson := by
        simp [ModelRequestV2.toJson, Json.member?, ModelRequest.toJson]
      rw [htext] at h
      rw [faithful_request.eq_of_canonicalJson_eq hrequest hassembled.1 h]
  | some parts =>
      -- the value of a request has no such member
      have hparts : (Json.arr (parts.map ContentPart.toJson)).wellFormed = true := by
        rw [Json.wellFormed, Json.wellFormedItems_iff]
        intro item hitem
        obtain ⟨part, -, rfl⟩ := List.mem_map.mp hitem
        exact wellFormed_contentPart part
      have hwellFormed : (ModelRequestV2.mk inner (some parts)).toJson.wellFormed = true := by
        simp only [ModelRequest.toJson, ModelRequest.members, Json.wellFormed,
          Json.wellFormedMembers, Bool.and_eq_true] at hinner
        simp [ModelRequestV2.toJson, ModelRequest.members, Json.member?, Json.wellFormed,
          Json.wellFormedMembers, hinner, show Json.wellFormedItems _ = true from hparts]
      have hfield := (sameUpToOrder_of_canonicalJson_eq (faithful_request.wellFormed hrequest)
        hwellFormed h).field? (faithful_request.wellFormed hrequest) hwellFormed "parts"
      cases hfield

end Hseos
