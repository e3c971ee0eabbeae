import RecordFlow.Resolver.Request

/-!
# Dispatching along a chain

## What every resolver of a chain is sent

Resolvers that are bound together serve one after another, and a write changes on its way.  The
recursion carries the request and the instances collected so far; what they are at a resolver is
told here by the outputs of the resolvers before it.  A failure ends the chain, and the state is
then the one that the failing resolver left.
-/

namespace RecordFlow

namespace Request

/-!
# Requests after some outputs

A write is handed on with the first instance of the last output that has one, so that empty
outputs are passed over.  Deletions and queries are handed on as they are.
-/

/-- The first instance of the last output that has one. -/
def latest (outputs : List (List Instance)) : Option Instance :=
  (outputs.filterMap List.head?).getLast?

/-- The request that is sent on after these outputs. -/
def after (request : Request) (outputs : List (List Instance)) : Request :=
  match request with
  | create inst => create ((latest outputs).getD inst)
  | update inst => update ((latest outputs).getD inst)
  | delete inst => delete inst
  | query path filter => query path filter

/-- What is returned after these outputs: the last one of a write, otherwise all of them. -/
def answer (request : Request) (outputs : List (List Instance)) : List Instance :=
  match request with
  | create _ | update _ => outputs.getLast?.getD []
  | delete _ | query _ _ => outputs.flatten

variable {request : Request}

theorem latest_cons (inst : Instance) (rest : List Instance) (outputs : List (List Instance)) :
    latest ((inst :: rest) :: outputs) = some ((latest outputs).getD inst) := by
  unfold latest
  rw [List.filterMap_cons_some List.head?_cons, List.getLast?_cons]

theorem after_nil (request : Request) : request.after [] = request := by
  cases request <;> rfl

theorem follow_of_read (h : request.isWrite = false) (output : List Instance) :
    request.follow output = request := by
  cases output with
  | nil => rfl
  | cons inst rest =>
      cases request with
      | create inst => cases h
      | update inst => cases h
      | delete inst => rfl
      | query path filter => rfl

theorem after_cons (request : Request) (output : List Instance) (outputs : List (List Instance)) :
    request.after (output :: outputs) = (request.follow output).after outputs := by
  cases output with
  | nil => cases request <;> rfl
  | cons inst rest =>
      cases request with
      | create first =>
          unfold after
          rw [latest_cons]
          rfl
      | update first =>
          unfold after
          rw [latest_cons]
          rfl
      | delete first => rfl
      | query path filter => rfl

theorem answer_write (h : request.isWrite = true) (outputs : List (List Instance)) :
    request.answer outputs = outputs.getLast?.getD [] := by
  cases request with
  | create inst => rfl
  | update inst => rfl
  | delete inst => cases h
  | query path filter => cases h

theorem answer_read (h : request.isWrite = false) (outputs : List (List Instance)) :
    request.answer outputs = outputs.flatten := by
  cases request with
  | create inst => cases h
  | update inst => cases h
  | delete inst => rfl
  | query path filter => rfl

theorem isWrite_follow (request : Request) (output : List Instance) :
    (request.follow output).isWrite = request.isWrite := by
  cases output with
  | nil => rfl
  | cons inst rest => cases request <;> rfl

theorem answer_follow (request : Request) (collected output : List Instance)
    (outputs : List (List Instance)) :
    (request.follow output).answer
        ((if request.isWrite then output else collected ++ output) :: outputs)
      = request.answer (collected :: output :: outputs) := by
  have hsame := request.isWrite_follow output
  cases hwrite : request.isWrite with
  | true =>
      rw [answer_write (hsame.trans hwrite), answer_write hwrite, if_pos rfl,
        List.getLast?_cons_cons]
  | false =>
      rw [answer_read (hsame.trans hwrite), answer_read hwrite, if_neg Bool.false_ne_true,
        List.flatten_cons, List.flatten_cons, List.flatten_cons, List.append_assoc]

theorem answer_nil_cons (request : Request) (outputs : List (List Instance)) :
    request.answer ([] :: outputs) = request.answer outputs := by
  cases hwrite : request.isWrite with
  | true =>
      rw [answer_write hwrite, answer_write hwrite]
      cases outputs with
      | nil => rfl
      | cons output rest => rw [List.getLast?_cons_cons]
  | false =>
      rw [answer_read hwrite, answer_read hwrite]
      rfl

theorem answer_singleton (request : Request) (output : List Instance) :
    request.answer [output] = output := by
  cases hwrite : request.isWrite with
  | true =>
      rw [answer_write hwrite]
      rfl
  | false => rw [answer_read hwrite, List.flatten_singleton]

end Request

/-!
# Serving in turn

The reference for a chain: every resolver is asked once, with the request that the outputs before
it call for and in the state that the one before it left.
-/

section

variable {ρ σ : Type} {serve : ρ → Request → σ → Except ResolverError (List Instance) × σ}

/-- These outputs and states arise when the resolvers serve one after another. -/
structure ServesInTurn (serve : ρ → Request → σ → Except ResolverError (List Instance) × σ)
    (request : Request) (resolvers : List ρ) (outputs : List (List Instance))
    (states : Nat → σ) : Prop where
  length_outputs : outputs.length = resolvers.length
  serves : ∀ k resolver output, resolvers[k]? = some resolver → outputs[k]? = some output →
    serve resolver (request.after (outputs.take k)) (states k) = (.ok output, states (k + 1))

def startingWith (state : σ) (states : Nat → σ) : Nat → σ
  | 0 => state
  | k + 1 => states k

theorem servesInTurn_nil (request : Request) (states : Nat → σ) :
    ServesInTurn serve request [] [] states :=
  ⟨rfl, fun _ _ _ hresolver _ => nomatch hresolver⟩

theorem ServesInTurn.cons {request : Request} {resolver : ρ} {rest : List ρ}
    {output : List Instance} {outputs : List (List Instance)} {state : σ} {states : Nat → σ}
    (hfirst : serve resolver request state = (.ok output, states 0))
    (hrest : ServesInTurn serve (request.follow output) rest outputs states) :
    ServesInTurn serve request (resolver :: rest) (output :: outputs)
      (startingWith state states) := by
  refine ⟨congrArg Nat.succ hrest.length_outputs, ?_⟩
  intro k asked given hasked hgiven
  cases k with
  | zero =>
      cases hasked
      cases hgiven
      rw [List.take_zero, Request.after_nil]
      exact hfirst
  | succ k =>
      rw [List.take_succ_cons, Request.after_cons]
      exact hrest.serves k asked given hasked hgiven

/-!
# The chain

One step asks the first resolver and goes on with what it returned.
-/

theorem dispatchChain_of_ok {request : Request} {resolver : ρ} {output : List Instance}
    {state next : σ} (h : serve resolver request state = (.ok output, next)) (rest : List ρ)
    (collected : List Instance) :
    dispatchChain serve (resolver :: rest) request collected state
      = { dispatchChain serve rest (request.follow output)
            (if request.isWrite then output else collected ++ output) next with
          asked := resolver :: (dispatchChain serve rest (request.follow output)
            (if request.isWrite then output else collected ++ output) next).asked } := by
  rw [dispatchChain, h]
  cases hwrite : request.isWrite with
  | true => rfl
  | false =>
      rw [Request.follow_of_read hwrite]
      rfl

theorem dispatchChain_of_error {request : Request} {resolver : ρ} {error : ResolverError}
    {state next : σ} (h : serve resolver request state = (.error error, next)) (rest : List ρ)
    (collected : List Instance) :
    dispatchChain serve (resolver :: rest) request collected state
      = ⟨.error error, next, [resolver]⟩ := by
  rw [dispatchChain, h]

theorem dispatchChain_in_turn (serve : ρ → Request → σ → Except ResolverError (List Instance) × σ)
    (resolvers : List ρ) (request : Request) (collected : List Instance) (state : σ) :
    (∃ outputs states, ServesInTurn serve request resolvers outputs states ∧ states 0 = state ∧
      dispatchChain serve resolvers request collected state
        = ⟨.ok (request.answer (collected :: outputs)), states resolvers.length, resolvers⟩) ∨
    ∃ served failing unasked outputs states error last,
      resolvers = served ++ failing :: unasked ∧
      ServesInTurn serve request served outputs states ∧ states 0 = state ∧
      serve failing (request.after outputs) (states served.length) = (.error error, last) ∧
      dispatchChain serve resolvers request collected state
        = ⟨.error error, last, served ++ [failing]⟩ := by
  induction resolvers generalizing request collected state with
  | nil =>
      refine Or.inl ⟨[], fun _ => state, servesInTurn_nil request _, rfl, ?_⟩
      rw [Request.answer_singleton]
      rfl
  | cons resolver rest ih =>
      cases hserve : serve resolver request state with
      | mk outcome next =>
          cases outcome with
          | error error =>
              refine Or.inr ⟨[], resolver, rest, [], fun _ => state, error, next, rfl,
                servesInTurn_nil request _, rfl, ?_, dispatchChain_of_error hserve rest collected⟩
              rw [Request.after_nil]
              exact hserve
          | ok output =>
              rw [dispatchChain_of_ok hserve]
              rcases ih (request.follow output)
                  (if request.isWrite then output else collected ++ output) next with
                ⟨outputs, states, hturn, rfl, hdone⟩
                | ⟨served, failing, unasked, outputs, states, error, last, rfl, hturn, rfl,
                    hfailed, hdone⟩
              · refine Or.inl ⟨output :: outputs, startingWith state states, hturn.cons hserve,
                  rfl, ?_⟩
                rw [hdone, Request.answer_follow]
                rfl
              · refine Or.inr ⟨resolver :: served, failing, unasked, output :: outputs,
                  startingWith state states, error, last, rfl, hturn.cons hserve, rfl, ?_, ?_⟩
                · rw [Request.after_cons]
                  exact hfailed
                · rw [hdone]
                  rfl

end

/-- Resolvers that are bound together are asked in their order, each once: a deletion or a query
is sent to all of them as it is and their outputs are joined, a write is sent on with the first
instance of the last output that has one and its last output is returned.  The first failure is
returned, and the resolvers after it are not asked.  A single resolver serves as one that is bound
alone. -/
theorem dispatch_in_turn {ρ σ : Type}
    (serve : ρ → Request → σ → Except ResolverError (List Instance) × σ) (resolvers : List ρ)
    (request : Request) (state : σ) :
    ((∃ outputs states, ServesInTurn serve request resolvers outputs states ∧ states 0 = state ∧
        (Bound.composed resolvers).dispatch serve request state
          = ⟨.ok (request.answer outputs), states resolvers.length, resolvers⟩) ∨
      ∃ served failing unasked outputs states error last,
        resolvers = served ++ failing :: unasked ∧
        ServesInTurn serve request served outputs states ∧ states 0 = state ∧
        serve failing (request.after outputs) (states served.length) = (.error error, last) ∧
        (Bound.composed resolvers).dispatch serve request state
          = ⟨.error error, last, served ++ [failing]⟩) ∧
    ∀ resolver, (Bound.composed [resolver]).dispatch serve request state
      = (Bound.override resolver).dispatch serve request state := by
  constructor
  · rcases dispatchChain_in_turn serve resolvers request [] state with
      ⟨outputs, states, hturn, hstart, hdone⟩ | hfailed
    · rw [Request.answer_nil_cons] at hdone
      exact Or.inl ⟨outputs, states, hturn, hstart, hdone⟩
    · exact Or.inr hfailed
  · intro resolver
    unfold Bound.dispatch
    dsimp only
    cases hserve : serve resolver request state with
    | mk outcome next =>
        cases outcome with
        | error error => exact dispatchChain_of_error hserve [] []
        | ok output =>
            rw [dispatchChain_of_ok hserve]
            cases request.isWrite <;> rfl

section Parcels

def parcel (state : String) : Instance :=
  ⟨.entity, Path.qualified "Shop" "Parcel", [("State", .text state)]⟩

def answering (outcome : Except ResolverError (List Instance)) (request : Request)
    (sent : List Request) : Except ResolverError (List Instance) × List Request :=
  (outcome, sent ++ [request])

def parcelChain : List (Except ResolverError (List Instance)) :=
  [.ok [parcel "packed"], .ok [], .ok [parcel "sent"]]

/-- The resolver in the middle returns nothing, so that the last one is sent what the first one
returned. -/
theorem parcel_passed_on :
    ∃ states, ServesInTurn answering (.create (parcel "open")) parcelChain
        [[parcel "packed"], [], [parcel "sent"]] states ∧
      states 3 = [.create (parcel "open"), .create (parcel "packed"), .create (parcel "packed")] ∧
      (Bound.composed parcelChain).dispatch answering (.create (parcel "open")) []
        = ⟨.ok [parcel "sent"], states 3, parcelChain⟩ := by
  rcases (dispatch_in_turn answering parcelChain (.create (parcel "open")) []).1 with
    ⟨outputs, states, hturn, hstart, hdone⟩
    | ⟨served, failing, unasked, _, _, _, _, hall, _, _, hfailed, _⟩
  · match outputs, hturn.length_outputs with
    | [first, second, third], _ =>
        have hfirst := Prod.mk.inj (hturn.serves 0 _ _ rfl rfl)
        have hsecond := Prod.mk.inj (hturn.serves 1 _ _ rfl rfl)
        have hthird := Prod.mk.inj (hturn.serves 2 _ _ rfl rfl)
        cases hfirst.1
        cases hsecond.1
        cases hthird.1
        refine ⟨states, hturn, ?_, hdone⟩
        rw [← hthird.2, ← hsecond.2, ← hfirst.2, hstart]
        rfl
  · -- None of the resolvers fails.
    have hmem : failing ∈ parcelChain := by
      rw [hall]
      exact List.mem_append_right served List.mem_cons_self
    cases (Prod.mk.inj hfailed).1
    simp [parcelChain] at hmem

end Parcels

end RecordFlow
