import Mathlib
import MiniS3.Net.RouteRegex
import MiniS3.Server.Routes

/-!
# Routing

Two routes of one method never take the same path: either their paths have different numbers of
slashes, or both are fixed texts.  So it does not matter in which order the routes are
registered.  And a path that is made from a pattern, with parts of a path in the places of its
parameters, is taken by the route of that pattern, which finds these parts again: each
parameter ends where the next slash is.
-/

namespace MiniS3.Api

open Lib Net

-- Named once, so that the decisions below carry no proof of their own.
local instance : LawfulBEq Bytes :=
  inferInstance

/-- The names of the parameters of a pattern. -/
def parameters (pattern : Bytes) : List Bytes :=
  ((compilePattern pattern).map Prod.snd).getD []

/-- A pattern with values in the places of its parameters; the name is the one that is being read
when the position is inside braces. -/
def substitute (assignment : Bytes → Bytes) : Option Bytes → Bytes → Bytes
  | _, [] => []
  | none, byte :: rest =>
      if byte = 123 then substitute assignment (some []) rest
      else byte :: substitute assignment none rest
  | some name, byte :: rest =>
      if byte = 125 then assignment name ++ substitute assignment none rest
      else substitute assignment (some (name ++ [byte])) rest

/-- At most one route takes a request, and it is found in whatever order the routes were
registered. -/
structure Unambiguous {m : Type → Type} [Monad m] (router : HttpRouter m) : Prop where
  atMostOne : ∀ method path,
    (router.routes.filter fun route => (route.takes method path).isSome).length ≤ 1
  anyOrder : ∀ order : List (RouteEntry (HttpHandler m)), order.Perm router.routes →
    ∀ library request, { router with routes := order }.handle library request =
      router.handle library request

/-- A path that is made from the pattern of a route goes to its handler, with the parameters it was
made with. -/
def InvertsPaths {m : Type → Type} [Monad m] (router : HttpRouter m) : Prop :=
  ∀ route ∈ router.routes, ∀ assignment : Bytes → Bytes,
    (∀ name ∈ parameters route.pattern, IsPart (assignment name)) →
    ∀ library request, request.method = route.method →
      request.path = substitute assignment none route.pattern →
      ∃ params, router.handle library request =
          HttpRouter.wrap router.middlewares route.handler { request with pathParams := params } ∧
        ∀ name, params.lookup name =
          if name ∈ parameters route.pattern then some (assignment name)
          else request.pathParams.lookup name

/-! ## Paths made from patterns -/

/-- The path is spelled by the pieces of the pattern, and the captures are the values. -/
theorem fills_substitute {assignment : Bytes → Bytes} {name? : Option Bytes} {pattern : Bytes}
    {pieces : List (Piece UInt8)} {names : List Bytes}
    (compiled : compileFrom name? pattern = some (pieces, names)) (noStar : (42 : UInt8) ∉ pattern)
    (isPart : ∀ name ∈ names, IsPart (assignment name)) :
    Piece.Fills pieces (names.map assignment) (substitute assignment name? pattern) := by
  induction pattern generalizing name? pieces names with
  | nil =>
      cases name? with
      | none =>
          cases compiled
          exact .nil
      | some name => contradiction
  | cons byte rest inductionHypothesis =>
      rw [List.mem_cons, not_or] at noStar
      cases name? with
      | none =>
          simp only [compileFrom, substitute] at compiled ⊢
          split at compiled
          · rename_i opens
            rw [if_pos opens]
            exact inductionHypothesis compiled noStar.2 isPart
          · rename_i notOpen
            rw [if_neg notOpen]
            obtain ⟨⟨others, otherNames⟩, compiledRest, equal⟩ := Option.map_eq_some_iff.mp compiled
            rw [if_neg (Ne.symm noStar.1)] at equal
            cases equal
            exact .literal byte (inductionHypothesis compiledRest noStar.2 isPart)
      | some name =>
          simp only [compileFrom, substitute] at compiled ⊢
          split at compiled
          · rename_i closes
            rw [if_pos closes]
            obtain ⟨⟨others, otherNames⟩, compiledRest, equal⟩ := Option.map_eq_some_iff.mp compiled
            cases equal
            rw [List.forall_mem_cons] at isPart
            refine .capture (fun symbol member => ?_) (List.length_pos_iff.mpr isPart.1.nonempty)
              (inductionHypothesis compiledRest noStar.2 isPart.2)
            simp only [notSlash, ne_eq, decide_not, Bool.not_eq_eq_eq_not, Bool.not_true,
              decide_eq_false_iff_not]
            rintro rfl
            exact isPart.1.noSlash member
          · rename_i notClose
            rw [if_neg notClose]
            exact inductionHypothesis compiled noStar.2 isPart

namespace Template

/-- Each parameter is followed by a slash or by nothing. -/
structure Separated (template : Template) : Prop where
  following : ∀ part ∈ template.parts.tail, part.1.head? = some 47
  ending : template.tail = [] ∨ template.tail.head? = some 47

instance (template : Template) : Decidable template.Separated :=
  decidable_of_iff ((∀ part ∈ template.parts.tail, part.1.head? = some 47) ∧
      (template.tail = [] ∨ template.tail.head? = some 47))
    ⟨fun both => ⟨both.1, both.2⟩, fun separated => ⟨separated.1, separated.2⟩⟩

/-- What follows the first parameter begins with a slash, unless nothing follows it. -/
theorem Separated.head?_spell {part : Bytes × Bytes} {parts : List (Bytes × Bytes)} {tail : Bytes}
    (separated : (Template.mk (part :: parts) tail).Separated) {values : List Bytes}
    (length : values.length = parts.length) (more : parts ≠ [] ∨ tail ≠ []) :
    ((Template.mk parts tail).spell values).head? = some 47 := by
  obtain ⟨following, ending⟩ := separated
  cases parts with
  | nil =>
      have slash := ending.resolve_left (more.resolve_left (by simp))
      simpa [spell] using slash
  | cons next parts =>
      cases values with
      | nil => simp at length
      | cons value values =>
          obtain ⟨after, isNext⟩ := List.head?_eq_some_iff.mp (following next List.mem_cons_self)
          simp [spell, isNext]

/-- A path has its parameters in one way only. -/
theorem Separated.spell_injective {template : Template} (separated : template.Separated)
    {values others : List Bytes} (length : values.length = template.parts.length)
    (otherLength : others.length = template.parts.length) (isPart : ∀ value ∈ values, IsPart value)
    (otherIsPart : ∀ value ∈ others, IsPart value)
    (same : template.spell values = template.spell others) : values = others := by
  obtain ⟨parts, tail⟩ := template
  induction parts generalizing values others with
  | nil =>
      rw [List.eq_nil_of_length_eq_zero length, List.eq_nil_of_length_eq_zero otherLength]
  | cons part parts inductionHypothesis =>
      cases values with
      | nil => simp at length
      | cons value values =>
          cases others with
          | nil => simp at otherLength
          | cons other others =>
              rw [List.forall_mem_cons] at isPart otherIsPart
              simp only [List.length_cons, Nat.add_right_cancel_iff] at length otherLength
              have cut : value ++ (Template.mk parts tail).spell values =
                  other ++ (Template.mk parts tail).spell others := by
                have dropped := congrArg (List.drop part.1.length) same
                simpa [spell] using dropped
              have rest : (Template.mk parts tail).Separated :=
                ⟨fun next member => separated.following next (List.mem_of_mem_tail member),
                  separated.ending⟩
              by_cases more : parts ≠ [] ∨ tail ≠ []
              · obtain ⟨after, isAfter⟩ := List.head?_eq_some_iff.mp
                  (separated.head?_spell length more)
                obtain ⟨otherAfter, isOtherAfter⟩ := List.head?_eq_some_iff.mp
                  (separated.head?_spell otherLength more)
                rw [isAfter, isOtherAfter] at cut
                obtain ⟨rfl, sameAfter⟩ := Bytes.eq_of_append_cons isPart.1.noSlash
                  otherIsPart.1.noSlash cut
                rw [inductionHypothesis isPart.2 otherIsPart.2 rest length otherLength
                  (isAfter.trans (sameAfter ▸ isOtherAfter.symm))]
              · obtain ⟨rfl, rfl⟩ : parts = [] ∧ tail = [] := by simpa using more
                obtain rfl := List.eq_nil_of_length_eq_zero length
                obtain rfl := List.eq_nil_of_length_eq_zero otherLength
                simp only [spell, List.zip_nil_left, List.flatMap_nil, List.append_nil] at cut
                rw [cut]

end Template

/-! ## Parameters of a request -/

/-- The parameters are set, each to its value. -/
theorem lookup_setPathParams (assignment : Bytes → Bytes) (names : List Bytes)
    (request : HttpRequest) (name : Bytes) :
    (request.setPathParams (names.map fun name => (name, assignment name))).pathParams.lookup name =
      if name ∈ names then some (assignment name) else request.pathParams.lookup name := by
  induction names generalizing request with
  | nil => rfl
  | cons first names inductionHypothesis =>
      have step := inductionHypothesis (request.setPathParam first (assignment first))
      have looked : (request.setPathParam first (assignment first)).pathParams.lookup name =
          if name = first then some (assignment first) else request.pathParams.lookup name :=
        Table.lookup_set ..
      rw [looked] at step
      refine step.trans ?_
      by_cases later : name ∈ names
      · simp [later]
      · by_cases own : name = first
        · simp [own]
        · simp [later, own]

theorem setPathParams_eq (params : List (Bytes × Bytes)) (request : HttpRequest) :
    request.setPathParams params =
      { request with pathParams := (request.setPathParams params).pathParams } := by
  induction params generalizing request with
  | nil => rfl
  | cons param params inductionHypothesis =>
      exact inductionHypothesis (request.setPathParam param.1 param.2)

/-! ## One route for a request -/

/-- When no two items both pass a check, at most one passes it. -/
theorem length_filter_le_one {α : Type} {check : α → Bool} {items : List α}
    (exclusive : items.Pairwise fun one two => ¬(check one = true ∧ check two = true)) :
    (items.filter check).length ≤ 1 := by
  have passed : ∀ item ∈ items.filter check, check item = true :=
    fun item member => (List.mem_filter.mp member).2
  have kept := exclusive.sublist (List.filter_sublist (p := check))
  match found : items.filter check with
  | [] => simp
  | [item] => simp
  | one :: two :: rest =>
      rw [found] at passed kept
      exact absurd ⟨passed one (by simp), passed two (by simp)⟩
        ((List.pairwise_cons.mp kept).1 two (by simp))

/-- When only one item has an answer, there is at most one answer. -/
theorem length_filterMap_le_one {α β : Type} {answer : α → Option β} {items : List α}
    (one : (items.filter fun item => (answer item).isSome).length ≤ 1) :
    (items.filterMap answer).length ≤ 1 := by
  have answers : items.filterMap answer =
      (items.filter fun item => (answer item).isSome).filterMap answer := by
    rw [List.filterMap_filter]
    congr 1
    funext item
    cases answer item <;> rfl
  rw [answers]
  exact (List.length_filterMap_le ..).trans one

/-- The only answer is the first one, in any order. -/
theorem findSome?_of_perm {α β : Type} {answer : α → Option β} {items order : List α}
    (perm : order.Perm items) (one : (items.filter fun item => (answer item).isSome).length ≤ 1) :
    order.findSome? answer = items.findSome? answer := by
  have few := length_filterMap_le_one one
  have same := perm.filterMap answer
  rw [← List.head?_filterMap, ← List.head?_filterMap]
  generalize items.filterMap answer = answers at few same
  cases answers with
  | nil => rw [same.eq_nil]
  | cons first rest =>
      obtain rfl : rest = [] := List.eq_nil_of_length_eq_zero (by simpa using few)
      rw [List.perm_singleton.mp same]

theorem findSome?_of_mem {α β : Type} {answer : α → Option β} {items : List α} {item : α}
    {found : β} (member : item ∈ items) (answered : answer item = some found)
    (one : (items.filter fun item => (answer item).isSome).length ≤ 1) :
    items.findSome? answer = some found := by
  have few := length_filterMap_le_one one
  have isAnswer : found ∈ items.filterMap answer := List.mem_filterMap.mpr ⟨item, member, answered⟩
  rw [← List.head?_filterMap]
  generalize items.filterMap answer = answers at few isAnswer
  cases answers with
  | nil => contradiction
  | cons first rest =>
      obtain rfl : rest = [] := List.eq_nil_of_length_eq_zero (by simpa using few)
      rw [List.mem_singleton.mp isAnswer]
      rfl

namespace Server

/-- Routes of one method differ in the number of slashes, or are fixed texts that differ. -/
theorem routes_exclusive : routes.Pairwise fun first second =>
    first.handler.method = second.handler.method →
      first.handler.template.slashes = second.handler.template.slashes →
        first.handler.template.parts = [] ∧ second.handler.template.parts = [] ∧
          first.handler.template.tail ≠ second.handler.template.tail := by
  decide +kernel

/-- No request is taken by two routes. -/
theorem routes_unambiguous (method : HttpMethod) (path : Bytes) :
    routes.Pairwise fun first second =>
      ¬((first.takes method path).isSome = true ∧ (second.takes method path).isSome = true) := by
  refine routes_exclusive.imp_of_mem ?_
  rintro first second member otherMember exclusive ⟨takes, otherTakes⟩
  obtain ⟨params, taken⟩ := Option.isSome_iff_exists.mp takes
  obtain ⟨otherParams, otherTaken⟩ := Option.isSome_iff_exists.mp otherTakes
  obtain ⟨isMethod, values, length, isPart, spelled, -⟩ := takes_routes member taken
  obtain ⟨isOtherMethod, others, otherLength, otherIsPart, otherSpelled, -⟩ :=
    takes_routes otherMember otherTaken
  have slashes : first.handler.template.slashes = second.handler.template.slashes := by
    rw [← Template.count_spell length isPart, ← Template.count_spell otherLength otherIsPart,
      ← spelled, ← otherSpelled]
  obtain ⟨noParts, noOtherParts, different⟩ :=
    exclusive (isMethod.symm.trans isOtherMethod) slashes
  rw [spelled] at otherSpelled
  simp only [Template.spell, noParts, noOtherParts, List.zip_nil_left, List.flatMap_nil,
    List.nil_append] at otherSpelled
  exact different otherSpelled

theorem atMostOne_routes (method : HttpMethod) (path : Bytes) :
    (routes.filter fun route => (route.takes method path).isSome).length ≤ 1 :=
  length_filter_le_one (routes_unambiguous method path)

theorem separated_routes : ∀ route ∈ routes, route.handler.template.Separated ∧
    (42 : UInt8) ∉ route.pattern ∧ plainFrom false route.pattern = true := by
  decide +kernel

/-- The path of a pattern is taken by its route, with the values it was made with. -/
theorem takes_substitute {route : RouteEntry Endpoint} (member : route ∈ routes)
    {assignment : Bytes → Bytes}
    (isPart : ∀ name ∈ parameters route.pattern, IsPart (assignment name)) :
    route.takes route.method (substitute assignment none route.pattern) =
      some ((parameters route.pattern).map fun name => (name, assignment name)) := by
  obtain ⟨isMethod, compiled⟩ := compile_routes route member
  obtain ⟨separated, noStar, -⟩ := separated_routes route member
  have names : parameters route.pattern = route.handler.template.names := by
    rw [parameters, compiled]
    rfl
  rw [names] at isPart ⊢
  obtain ⟨length, -, spelled⟩ :=
    Template.fills_pieces.mp (fills_substitute compiled noStar isPart)
  have valuesArePart : ∀ value ∈ route.handler.template.names.map assignment, IsPart value := by
    intro value isValue
    obtain ⟨name, isName, rfl⟩ := List.mem_map.mp isValue
    exact isPart name isName
  have taken := isSome_takes member length valuesArePart
  rw [← spelled, ← isMethod] at taken
  obtain ⟨params, taken⟩ := Option.isSome_iff_exists.mp taken
  obtain ⟨-, values, otherLength, otherIsPart, otherSpelled, rfl⟩ := takes_routes member taken
  rw [taken]
  have same := separated.spell_injective length otherLength valuesArePart otherIsPart
    (spelled.symm.trans otherSpelled)
  rw [← same, List.map_prod_left_eq_zip]

variable (setup : Setup)

theorem atMostOne_router (method : HttpMethod) (path : Bytes) :
    ((router setup).routes.filter fun route => (route.takes method path).isSome).length ≤ 1 := by
  simp only [router, List.filter_map, List.length_map]
  exact atMostOne_routes method path

theorem unambiguous_router : Unambiguous (router setup) where
  atMostOne := atMostOne_router setup
  anyOrder := by
    intro order perm library request
    have found : findRoute order request.method request.path =
        findRoute (router setup).routes request.method request.path := by
      refine findSome?_of_perm perm ?_
      simpa using atMostOne_router setup request.method request.path
    unfold HttpRouter.handle
    simp only [found]

theorem invertsPaths_router : InvertsPaths (router setup) := by
  intro route member assignment isPart library request isMethod isPath
  obtain ⟨entry, entryMember, rfl⟩ := List.mem_map.mp member
  have taken := takes_substitute entryMember isPart
  have found : findRoute (router setup).routes request.method request.path =
      some (serve (entry.handler.handler setup),
        (parameters entry.pattern).map fun name => (name, assignment name)) := by
    refine findSome?_of_mem member ?_ ?_
    · rw [isMethod, isPath]
      exact congrArg (Option.map _) taken
    · simpa using atMostOne_router setup request.method request.path
  refine ⟨_, ?_, lookup_setPathParams assignment (parameters entry.pattern) request⟩
  rw [HttpRouter.handle, found, ← setPathParams_eq]

/-- Every request has at most one route, in whatever order the routes are registered; a path that is
made from the pattern of a route goes to this route, with the parameters it was made with; and
the regular expressions of the routes match as the router is said to. -/
theorem routing_is_exact : Unambiguous (router setup) ∧ InvertsPaths (router setup) ∧
    ∀ route ∈ (router setup).routes, ∀ path,
      matchRegex route.pattern path = matchPattern route.pattern path := by
  refine ⟨unambiguous_router setup, invertsPaths_router setup, ?_⟩
  intro route member path
  obtain ⟨entry, entryMember, rfl⟩ := List.mem_map.mp member
  exact matchRegex_eq (separated_routes entry entryMember).2.2 path

end Server

end MiniS3.Api
