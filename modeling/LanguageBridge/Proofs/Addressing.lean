import LanguageBridge.Proofs.Alias
import LanguageBridge.Routing.Router

namespace LanguageBridge

/-! Requests that are routed are about the alias of the document they were routed to, whatever shape
their parameters had. -/

/-! ### Fields -/

namespace Fields

theorem get?_cons (name : String) (value : Value) (rest : Fields) (wanted : String) :
    get? ((name, value) :: rest) wanted =
      if wanted = name then some value else get? rest wanted := by
  by_cases same : wanted = name
  · simp [get?, same]
  · rw [get?, List.lookup_cons, show (wanted == name) = false by simpa using same, if_neg same]
    rfl

theorem get?_append (first second : Fields) (name : String) :
    get? (first ++ second) name = (get? first name).or (get? second name) :=
  List.lookup_append

theorem get?_update (fields : Fields) (name wanted : String) (change : Value → Value) :
    get? (update fields name change) wanted =
      if wanted = name then (get? fields name).map change else get? fields wanted := by
  induction fields with
  | nil => by_cases same : wanted = name <;> simp [update, get?]
  | cons field rest ih =>
    obtain ⟨here, value⟩ := field
    simp only [update, List.map_cons] at ih ⊢
    by_cases same : here = name
    · subst same
      rw [if_pos rfl, get?_cons, ih, get?_cons, get?_cons, if_pos rfl]
      by_cases found : wanted = here <;> simp [found]
    · rw [if_neg same, get?_cons, ih, get?_cons, get?_cons, if_neg (Ne.symm same)]
      by_cases found : wanted = here
      · subst found
        simp [same]
      · simp [found]

theorem get?_put (fields : Fields) (name wanted : String) (value : Value) :
    get? (put fields name value) wanted =
      if wanted = name then some value else get? fields wanted := by
  unfold put
  by_cases known : (get? fields name).isSome
  · rw [if_pos known, get?_update]
    obtain ⟨old, found⟩ := Option.isSome_iff_exists.mp known
    rw [found, Option.map_some]
  · rw [if_neg known, get?_append, get?_cons]
    rw [Option.not_isSome_iff_eq_none] at known
    by_cases same : wanted = name
    · rw [if_pos same, if_pos same, same, known, Option.none_or]
    · rw [if_neg same, if_neg same]
      exact Option.or_none

theorem get?_without (fields : Fields) (names : List String) {wanted : String}
    (kept : wanted ∉ names) : get? (without fields names) wanted = get? fields wanted := by
  induction fields with
  | nil => rfl
  | cons field rest ih =>
    obtain ⟨here, value⟩ := field
    unfold without at ih ⊢
    rw [List.filter_cons, get?_cons, ← ih]
    by_cases dropped : here ∈ names
    · have other : wanted ≠ here := by
        rintro rfl
        exact kept dropped
      rw [if_neg (by simpa using dropped), if_neg other]
    · rw [if_pos (by simpa using dropped), get?_cons]

theorem get?_optional (name wanted : String) (other : wanted ≠ name) (value : Option Value) :
    get? (optional name value) wanted = none := by
  cases value with
  | none => rfl
  | some value =>
    rw [optional, get?_cons, if_neg other]
    rfl

theorem get?_take {α : Type} (fields : Fields) {name wanted : String} (other : wanted ≠ name)
    (read : Value → Option α) : get? (take fields name read).2 wanted = get? fields wanted := by
  unfold take
  split
  · exact get?_without fields [name] (by simpa using other)
  · rfl

end Fields

/-! ### Parameters -/

theorem Value.givePart_eq_ok {owner given value : Value} {name : String}
    (done : owner.givePart name value = .ok given) :
    ∃ type fields, owner = .record type fields ∧
      given = .record type (Fields.put fields name value) := by
  unfold givePart at done
  split at done
  · rename_i type fields
    split at done
    · cases done
      exact ⟨type, fields, rfl, rfl⟩
    · contradiction
  · contradiction
  · contradiction
  · contradiction

theorem Except.bind_eq_ok {α β : Type} {first : Except Fault α} {next : α → Except Fault β}
    {result : β} (done : (first >>= next) = .ok result) :
    ∃ value, first = .ok value ∧ next value = .ok result := by
  cases first with
  | error fault => cases done
  | ok value => exact ⟨value, rfl, done⟩

theorem Except.map_eq_ok {α β : Type} {first : Except Fault α} {change : α → β} {result : β}
    (done : first.map change = .ok result) : ∃ value, first = .ok value ∧ change value = result := by
  cases first with
  | error fault => cases done
  | ok value =>
    cases done
    exact ⟨value, rfl, rfl⟩

theorem Except.eq_ok_of_toOption {α : Type} {first : Except Fault α} {value : α}
    (done : first.toOption = some value) : first = .ok value := by
  cases first with
  | error fault => cases done
  | ok found =>
    cases done
    rfl

namespace Params

def AddressedTo (uri : String) (value : Value) : Prop :=
  ∃ type fields, value = .record type fields ∧
    Fields.get? fields "textDocument" = some (Identifier.toValue { uri := uri })

theorem AddressedTo.giveOptionalPart {uri name : String} {value given : Value}
    {part : Option Value} (addressed : AddressedTo uri value) (other : "textDocument" ≠ name)
    (done : value.giveOptionalPart name part = .ok given) : AddressedTo uri given := by
  cases part with
  | none =>
    cases done
    exact addressed
  | some part =>
    obtain ⟨type, fields, rfl, rfl⟩ := Value.givePart_eq_ok done
    obtain ⟨_, _, same, held⟩ := addressed
    cases same
    exact ⟨type, _, rfl, by rw [Fields.get?_put, if_neg other, held]⟩

theorem part_uri (uri : String) :
    (Identifier.toValue { uri := uri }).part "uri" = .ok (.str uri) := by
  simp [Identifier.toValue, Value.part, Fields.get?_cons]

theorem uri_item {uri : String} {fields : Fields}
    (held : Fields.get? fields "textDocument" = some (Identifier.toValue { uri := uri })) :
    (item (.ofFields fields)).uri = .ok (.str uri) := by
  have data : ∀ data : Value,
      Fields.get? (CompletionItem.dataField data) "textDocument" = none := by
    intro data
    cases data <;> rfl
  have kept : Fields.get? (CompletionItem.ofFields fields).rest "textDocument" =
      some (Identifier.toValue { uri := uri }) := by
    rw [CompletionItem.ofFields, Fields.get?_without _ _ (by decide),
      Fields.get?_take _ (by decide), held]
  have found : (CompletionItem.ofFields fields).toValue.part "textDocument" =
      .ok (Identifier.toValue { uri := uri }) := by
    rw [CompletionItem.toValue, Value.part]
    simp only [Fields.get?_append, data, kept, Option.none_or,
      Fields.get?_optional "textEdit" "textDocument" (by decide),
      Fields.get?_optional "additionalTextEdits" "textDocument" (by decide)]
  change ((CompletionItem.ofFields fields).toValue.part "textDocument" >>= fun document =>
    document.part "uri") = _
  rw [found]
  exact part_uri uri

theorem uri_ofValue {uri : String} {value : Value} (addressed : AddressedTo uri value) :
    (ofValue value).uri = .ok (.str uri) := by
  obtain ⟨type, fields, rfl, held⟩ := addressed
  unfold ofValue
  split
  · rename_i read same
    cases same
    exact uri_item held
  · rename_i type fields' _ same
    cases same
    rw [DocumentParams.ofFields?, held]
    rfl
  · rename_i noRecord
    exact absurd rfl (noRecord type fields)

theorem uri_readdressValue {params : Value} {uri : String} {place : Option Position}
    {span : Option Range} {outgoing : Params}
    (done : readdressValue params uri place span = .ok outgoing) :
    outgoing.uri = .ok (.str uri) := by
  obtain ⟨addressed, first, done⟩ := Except.bind_eq_ok done
  obtain ⟨placed, second, done⟩ := Except.bind_eq_ok done
  obtain ⟨spanned, third, done⟩ := Except.bind_eq_ok done
  cases done
  have atFirst : AddressedTo uri addressed := by
    obtain ⟨type, fields, rfl, rfl⟩ := Value.givePart_eq_ok first
    exact ⟨type, _, rfl, by rw [Fields.get?_put, if_pos rfl]⟩
  have atSecond := atFirst.giveOptionalPart (by decide) second
  exact uri_ofValue (atSecond.giveOptionalPart (by decide) third)

theorem uri_readdress {params outgoing : Params} {uri : String} {place : Option Position}
    {span : Option Range} (done : params.readdress uri place span = .ok outgoing) :
    outgoing.uri = .ok (.str uri) := by
  unfold readdress at done
  split at done
  · split at done
    · cases done
      rfl
    · exact uri_readdressValue done
  · exact uri_readdressValue done

end Params

/-! ### Routed requests -/

/-- A request that is about the alias of the document it was routed to. -/
def Context.Addressed (context : Context) : Prop :=
  ∃ aliasUri, Alias.encode context.host context.language = .ok aliasUri ∧
    context.params.uri = .ok (.str aliasUri)

namespace Router

theorem record_eq_ok {router : Router} {method : Method} {host language : String}
    {params : Params} {hostRange : Value} {context : Context}
    (entered : (router.record method host language params hostRange).2 = .ok context) :
    context.host = host ∧ context.language = language ∧ context.params = params := by
  simp only [record, Pending.record] at entered
  split at entered
  · contradiction
  · cases entered
    exact ⟨rfl, rfl, rfl⟩

theorem addressed_of_record {router : Router} {method : Method} {host language aliasUri : String}
    {params outgoing : Params} {place : Option Position} {span : Option Range} {hostRange : Value}
    {context : Context} (encoded : Alias.encode host language = .ok aliasUri)
    (readdressed : params.readdress aliasUri place span = .ok outgoing)
    (entered : (router.record method host language outgoing hostRange).2 = .ok context) :
    context.Addressed := by
  obtain ⟨rfl, rfl, rfl⟩ := record_eq_ok entered
  exact ⟨aliasUri, encoded, Params.uri_readdress readdressed⟩

theorem route_addressed {router : Router} {store : Store} {host : String} {position : Position}
    {method : Method} {params : Params} {context : Context}
    (routed : (router.route store host position method params).2 = .ok (some context)) :
    context.Addressed := by
  unfold route at routed
  split at routed
  · cases routed
  · split at routed
    · cases routed
    · split at routed
      · contradiction
      · rename_i aliasUri encoded
        split at routed
        · contradiction
        · rename_i outgoing readdressed
          simp only at routed
          cases entered : ((router.rememberCompletion method host _).record method host _
              outgoing .null).2 with
          | error fault =>
            rw [entered] at routed
            cases routed
          | ok recorded =>
            rw [entered] at routed
            cases routed
            exact addressed_of_record encoded readdressed entered

theorem widened_readdress {method : Method} {params outgoing : Params} {aliasUri : String}
    {document : Document} {asked : Value}
    (done : widened method params aliasUri document = .ok (outgoing, asked)) :
    ∃ span, params.readdress aliasUri none span = .ok outgoing := by
  unfold widened at done
  split at done
  · obtain ⟨_, _, done⟩ := Except.bind_eq_ok done
    obtain ⟨_, readdressed, done⟩ := Except.bind_eq_ok done
    cases done
    exact ⟨_, readdressed⟩
  · obtain ⟨_, readdressed, done⟩ := Except.bind_eq_ok done
    cases done
    exact ⟨_, readdressed⟩

theorem fanOutOver_addressed {store : Store} {host : String} {method : Method} {params : Params}
    {languages : List String} {router : Router} {contexts : List Context}
    (routed : (fanOutOver store host method params languages router).2 = .ok contexts) :
    ∀ context ∈ contexts, context.Addressed := by
  fun_induction fanOutOver store host method params languages router generalizing contexts with
  | case1 =>
    cases routed
    simp
  | case2 _ _ _ _ ih | case3 _ _ _ _ _ _ ih => exact ih routed
  | case4 | case5 | case6 => contradiction
  | case7 language rest router document _ _ aliasUri encoded outgoing asked wide entered first
      recorded later =>
      rename_i ih
      obtain ⟨span, readdressed⟩ := widened_readdress wide
      have addressed : first.Addressed :=
        addressed_of_record encoded readdressed (congrArg Prod.snd recorded)
      cases others : later.2 with
      | error fault =>
        rw [others] at routed
        cases routed
      | ok behind =>
        rw [others] at routed
        cases routed
        intro context member
        rcases List.mem_cons.mp member with same | inRest
        · exact same ▸ addressed
        · exact ih others context inRest

theorem fanOut_addressed {router : Router} {store : Store} {host : String} {method : Method}
    {params : Params} {context : Context}
    (member : context ∈ (router.fanOut store host method params).2.toOption.getD []) :
    context.Addressed := by
  cases routed : (router.fanOut store host method params).2 with
  | error fault =>
    rw [routed] at member
    cases member
  | ok contexts =>
    rw [routed] at member
    exact fanOutOver_addressed routed context member

end Router

end LanguageBridge
