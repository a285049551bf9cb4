import MiniS3.Server.Dispatch

/-!
# The paths of the routes

For each route, the paths it takes and the parameters it reads from them.  A parameter is a
part of a path: it is not empty and has no slash.
-/

namespace MiniS3.Api

open Lib Net

/-- A part of a path between slashes. -/
structure IsPart (text : Bytes) : Prop where
  nonempty : text ≠ []
  noSlash : (47 : UInt8) ∉ text

/-- The shape of a path: literal texts, each with the parameter that follows it, and what
follows the last parameter. -/
structure Template where
  parts : List (Bytes × Bytes)
  tail : Bytes

namespace Template

/-- The names of the parameters. -/
def names (template : Template) : List Bytes :=
  template.parts.map Prod.snd

/-- The path with values for its parameters. -/
def spell (template : Template) (values : List Bytes) : Bytes :=
  ((template.parts.zip values).flatMap fun part => part.1.1 ++ part.2) ++ template.tail

/-- The pieces of the pattern. -/
def pieces (template : Template) : List (Piece UInt8) :=
  (template.parts.flatMap fun part => part.1.map .literal ++ [.capture notSlash 1]) ++
    template.tail.map .literal

/-- The slashes in the literal texts. -/
def slashes (template : Template) : Nat :=
  (template.parts.map fun part => part.1.count 47).sum + template.tail.count 47

/-- A path has the slashes of its shape. -/
theorem count_spell {template : Template} {values : List Bytes}
    (length : values.length = template.parts.length) (isPart : ∀ value ∈ values, IsPart value) :
    (template.spell values).count 47 = template.slashes := by
  obtain ⟨parts, tail⟩ := template
  induction parts generalizing values with
  | nil => simp [spell, slashes]
  | cons part parts inductionHypothesis =>
      cases values with
      | nil => simp at length
      | cons value values =>
          rw [List.forall_mem_cons] at isPart
          have counted := inductionHypothesis isPart.2 (by simpa using length)
          have absent : value.count 47 = 0 := List.count_eq_zero_of_not_mem isPart.1.noSlash
          simp only [spell, slashes, List.zip_cons_cons, List.flatMap_cons, List.map_cons,
            List.sum_cons, List.count_append, absent] at counted ⊢
          omega

theorem fills_pieces {template : Template} {captures : List Bytes} {path : Bytes} :
    Piece.Fills template.pieces captures path ↔
      captures.length = template.parts.length ∧ (∀ value ∈ captures, IsPart value) ∧
        path = template.spell captures := by
  obtain ⟨parts, tail⟩ := template
  induction parts generalizing captures path with
  | nil =>
      have filled : Piece.Fills (tail.map Piece.literal ++ []) captures path ↔ _ :=
        Piece.fills_literals
      simp only [List.append_nil, Piece.fills_nil] at filled
      simp only [pieces, spell, List.flatMap_nil, List.nil_append, List.zip_nil_left,
        List.length_nil, List.length_eq_zero_iff, filled]
      constructor
      · rintro ⟨rest, rfl, rfl, rfl⟩
        simp
      · rintro ⟨rfl, -, rfl⟩
        exact ⟨[], by simp, rfl, rfl⟩
  | cons part parts inductionHypothesis =>
      have split : (Template.mk (part :: parts) tail).pieces = part.1.map .literal ++
          (.capture notSlash 1 :: (Template.mk parts tail).pieces) := by
        simp [pieces]
      rw [split, Piece.fills_literals]
      simp only [Piece.fills_capture, inductionHypothesis]
      constructor
      · rintro ⟨_, rfl, run, _, others, rfl, rfl, accepted, enough, length, isPart, rfl⟩
        refine ⟨by simp [length], ?_, by simp [spell]⟩
        rw [List.forall_mem_cons]
        refine ⟨⟨?_, fun slash => ?_⟩, isPart⟩
        · rintro rfl
          simp at enough
        · simpa [notSlash] using accepted 47 slash
      · rintro ⟨length, isPart, rfl⟩
        cases captures with
        | nil => simp at length
        | cons run others =>
            rw [List.forall_mem_cons] at isPart
            refine ⟨_, by simp [spell], run, _, others, rfl, rfl, ?_, ?_, ?_, isPart.2, rfl⟩
            · intro symbol member
              simp only [notSlash, ne_eq, decide_not, Bool.not_eq_eq_eq_not, Bool.not_true,
                decide_eq_false_iff_not]
              rintro rfl
              exact isPart.1.noSlash member
            · exact List.length_pos_iff.mpr isPart.1.nonempty
            · simpa using length

end Template

namespace Endpoint

/-- The method of the route. -/
def method : Endpoint → HttpMethod
  | .healthCheck | .readyCheck | .metrics | .getBucket | .listBuckets | .getObject
  | .listObjects => .GET
  | .createBucket | .putObject | .uploadPart => .PUT
  | .deleteBucket | .deleteObject | .abortUpload => .DELETE
  | .headObject => .HEAD
  | .initUpload | .completeUpload | .createPresignUrl => .POST

/-- A path with the name of a bucket. -/
def bucketPart : Bytes × Bytes :=
  (ascii "/buckets/", ascii "bucket")

/-- The paths of the route. -/
def template : Endpoint → Template
  | .healthCheck => ⟨[], ascii "/healthz"⟩
  | .readyCheck => ⟨[], ascii "/readyz"⟩
  | .metrics => ⟨[], ascii "/metrics"⟩
  | .listBuckets => ⟨[], ascii "/buckets"⟩
  | .createPresignUrl => ⟨[], ascii "/presign"⟩
  | .createBucket | .getBucket | .deleteBucket => ⟨[bucketPart], []⟩
  | .listObjects => ⟨[bucketPart], ascii "/objects"⟩
  | .putObject | .getObject | .headObject | .deleteObject =>
      ⟨[bucketPart, (ascii "/objects/", ascii "object")], []⟩
  | .initUpload => ⟨[bucketPart, (ascii "/multipart/", ascii "object")], []⟩
  | .uploadPart =>
      ⟨[bucketPart, (ascii "/multipart/", ascii "object"), (ascii "/", ascii "upload_id"),
        (ascii "/parts/", ascii "part_number")], []⟩
  | .completeUpload =>
      ⟨[bucketPart, (ascii "/multipart/", ascii "object"), (ascii "/", ascii "upload_id")],
        ascii "/complete"⟩
  | .abortUpload =>
      ⟨[bucketPart, (ascii "/multipart/", ascii "object"), (ascii "/", ascii "upload_id")], []⟩

end Endpoint

namespace Server

/-- The routes have the methods and the paths of their endpoints. -/
theorem compile_routes : ∀ route ∈ routes, route.method = route.handler.method ∧
    compilePattern route.pattern =
      some (route.handler.template.pieces, route.handler.template.names) := by
  unfold routes
  simp only [List.forall_mem_cons]
  refine ⟨⟨rfl, rfl⟩, ⟨rfl, rfl⟩, ⟨rfl, rfl⟩, ⟨rfl, rfl⟩, ⟨rfl, rfl⟩, ⟨rfl, rfl⟩, ⟨rfl, rfl⟩,
    ⟨rfl, rfl⟩, ⟨rfl, rfl⟩, ⟨rfl, rfl⟩, ⟨rfl, rfl⟩, ⟨rfl, rfl⟩, ⟨rfl, rfl⟩, ⟨rfl, rfl⟩,
    ⟨rfl, rfl⟩, ⟨rfl, rfl⟩, ⟨rfl, rfl⟩, by simp⟩

/-- A route takes a request when it has its method and its path is of the shape of the
route. -/
theorem takes_routes {route : RouteEntry Endpoint} (member : route ∈ routes)
    {method : HttpMethod} {path : Bytes} {params : List (Bytes × Bytes)}
    (takes : route.takes method path = some params) :
    method = route.handler.method ∧
      ∃ values, values.length = route.handler.template.parts.length ∧
        (∀ value ∈ values, IsPart value) ∧ path = route.handler.template.spell values ∧
        params = route.handler.template.names.zip values := by
  obtain ⟨methodEq, compiled⟩ := compile_routes route member
  unfold RouteEntry.takes at takes
  split at takes
  · rename_i sameMethod
    rw [matchPattern, compiled, Option.bind_some] at takes
    obtain ⟨captures, matched, rfl⟩ := Option.map_eq_some_iff.mp takes
    obtain ⟨length, isPart, spelled⟩ :=
      Template.fills_pieces.mp (Piece.fills_of_matchAll matched)
    exact ⟨sameMethod ▸ methodEq, captures, length, isPart, spelled, rfl⟩
  · contradiction

/-- The route of a request has its method and its path. -/
theorem routed_of_findRoute {method : HttpMethod} {path : Bytes} {endpoint : Endpoint}
    {params : List (Bytes × Bytes)}
    (found : findRoute routes method path = some (endpoint, params)) :
    method = endpoint.method ∧
      ∃ values, values.length = endpoint.template.parts.length ∧
        (∀ value ∈ values, IsPart value) ∧ path = endpoint.template.spell values ∧
        params = endpoint.template.names.zip values := by
  obtain ⟨route, member, taken⟩ := List.exists_of_findSome?_eq_some found
  obtain ⟨params, takes, same⟩ := Option.map_eq_some_iff.mp taken
  cases same
  exact takes_routes member takes

/-- A path of the shape of a route is taken by that route. -/
theorem isSome_takes {route : RouteEntry Endpoint} (member : route ∈ routes)
    {values : List Bytes} (length : values.length = route.handler.template.parts.length)
    (isPart : ∀ value ∈ values, IsPart value) :
    (route.takes route.handler.method (route.handler.template.spell values)).isSome := by
  obtain ⟨methodEq, compiled⟩ := compile_routes route member
  have matched := Piece.isSome_matchAll_of_fills
    (Template.fills_pieces.mpr ⟨length, isPart, rfl⟩)
  simpa [RouteEntry.takes, methodEq, matchPattern, compiled] using matched

/-! ## The path of an object -/

/-- Two paths of objects are equal only part by part, when one of them is made of parts. -/
theorem objectPath_injective {bucket object otherBucket otherObject : Bytes}
    (isBucket : IsPart bucket)
    (slashes : (47 : UInt8) ∉ otherBucket)
    (same : PresignHandlers.objectPath bucket object =
      PresignHandlers.objectPath otherBucket otherObject) :
    bucket = otherBucket ∧ object = otherObject := by
  have cut : bucket ++ 47 :: (ascii "objects/" ++ object) =
      otherBucket ++ 47 :: (ascii "objects/" ++ otherObject) := by
    have dropped := congrArg (List.drop (ascii "/buckets/").length) same
    simpa [PresignHandlers.objectPath, ascii] using dropped
  obtain ⟨rfl, rest⟩ := Bytes.eq_of_append_cons isBucket.noSlash slashes cut
  exact ⟨rfl, List.append_cancel_left rest⟩

/-- Only one route for `GET` has as many slashes as the path of an object. -/
theorem slashes_lt_four {endpoint : Endpoint} (get : endpoint.method = .GET)
    (other : endpoint ≠ .getObject) : endpoint.template.slashes < 4 := by
  cases endpoint with
  | healthCheck | readyCheck | metrics | getBucket | listBuckets | listObjects => decide
  | getObject => exact absurd rfl other
  | _ => cases get

/-- A `GET` on the path of an object goes to `GetObject` or nowhere: no other route for this
method has as many slashes. -/
theorem route_of_objectPath {endpoint : Endpoint} {params : List (Bytes × Bytes)}
    {bucket object : Bytes}
    (found : findRoute routes .GET (PresignHandlers.objectPath bucket object) =
      some (endpoint, params)) :
    endpoint = .getObject ∧ IsPart bucket ∧ IsPart object ∧
      params = [(ascii "bucket", bucket), (ascii "object", object)] := by
  obtain ⟨method, values, length, isPart, spelled, rfl⟩ := routed_of_findRoute found
  have slashes := congrArg (List.count 47) spelled
  rw [Template.count_spell length isPart] at slashes
  have literals : (ascii "/buckets/").count 47 = 2 ∧ (ascii "/objects/").count 47 = 2 := by
    decide
  simp only [PresignHandlers.objectPath, List.count_append, literals] at slashes
  have isGet : endpoint = .getObject := by
    by_contra other
    have fewer := slashes_lt_four method.symm other
    omega
  subst isGet
  have four : Endpoint.getObject.template.slashes = 4 := by decide
  rw [four] at slashes
  obtain ⟨one, two, rfl⟩ := List.length_eq_two.mp length
  have noSlash : (47 : UInt8) ∉ bucket := List.count_eq_zero.mp (by omega)
  have shape : Endpoint.getObject.template.spell [one, two] =
      PresignHandlers.objectPath one two := by
    simp [Endpoint.template, Endpoint.bucketPart, Template.spell, PresignHandlers.objectPath]
  rw [shape] at spelled
  obtain ⟨rfl, rfl⟩ := objectPath_injective (isPart one (by simp)) noSlash spelled.symm
  exact ⟨rfl, isPart one (by simp), isPart two (by simp), rfl⟩

/-- A `GET` on the path of an object whose names are parts of a path goes to `GetObject`. -/
theorem findRoute_objectPath {bucket object : Bytes} (isBucket : IsPart bucket)
    (isObject : IsPart object) :
    findRoute routes .GET (PresignHandlers.objectPath bucket object) =
      some (.getObject, [(ascii "bucket", bucket), (ascii "object", object)]) := by
  have member : (⟨.GET, ascii "/buckets/\x7bbucket\x7d/objects/\x7bobject\x7d", .getObject⟩ :
      RouteEntry Endpoint) ∈ routes := by
    simp [routes]
  have isPart : ∀ value ∈ [bucket, object], IsPart value := by
    simp [isBucket, isObject]
  have taken := isSome_takes member (by rfl : [bucket, object].length = _) isPart
  have shape : Endpoint.getObject.template.spell [bucket, object] =
      PresignHandlers.objectPath bucket object := by
    simp [Endpoint.template, Endpoint.bucketPart, Template.spell, PresignHandlers.objectPath]
  rw [shape] at taken
  have some : (findRoute routes .GET (PresignHandlers.objectPath bucket object)).isSome := by
    rw [findRoute, List.findSome?_isSome_iff]
    exact ⟨_, member, by rw [Option.isSome_map]; exact taken⟩
  obtain ⟨⟨endpoint, params⟩, found⟩ := Option.isSome_iff_exists.mp some
  obtain ⟨rfl, -, -, rfl⟩ := route_of_objectPath found
  exact found

end Server

end MiniS3.Api
