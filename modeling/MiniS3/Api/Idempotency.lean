import MiniS3.Api.HandlerOps
import MiniS3.Storage.BlobWrites

/-!
# Idempotency keys

Two uploads with one `Idempotency-Key`, the first of which was answered with 200.  The
second is compared with the record of the first by a digest over its method, path, size and
`X-Content-SHA256`; the bytes themselves are not part of it.

An upload is a request as it reaches `PutObject`, together with the bytes that were sent
with it.  They are in the request, or they were streamed to a blob whose key and size the
server has put into the request.
-/

namespace MiniS3.Api

open Lib Db Net DataStore

/-! ## Uploads -/

section

variable (setup : Setup)

/-- The blob key of an upload: what the streaming layer has left in the headers, or the
digest of the body. -/
def contentKey (request : HttpRequest) : Bytes :=
  if (request.getHeader (ascii "X-Internal-CAS-Key")).isEmpty then setup.sha256Hex request.body
  else request.getHeader (ascii "X-Internal-CAS-Key")

/-- The size that `PutObject` takes an upload to have. -/
def declaredSize (request : HttpRequest) : Nat :=
  if (request.getHeader (ascii "X-Internal-CAS-Key")).isEmpty then request.body.length
  else (Bytes.stoull (request.getHeader (ascii "X-Internal-Size"))).getD request.body.length

/-- The bytes of the body of a request that has reached `PutObject`. -/
inductive Carries (request : HttpRequest) (content : Bytes) : Prop
  | inRequest (body : request.body = content)
  | streamed (key : request.getHeader (ascii "X-Internal-CAS-Key") = setup.sha256Hex content)
      (size : request.getHeader (ascii "X-Internal-Size") = Bytes.ofNat content.length)

/-- A request for `PutObject` with the bytes of its body. -/
structure Upload where
  request : HttpRequest
  content : Bytes
  carries : Carries setup request content

namespace Upload

variable {setup}

/-- What the digest of an upload is taken of. -/
def compared (upload : Upload setup) : Bytes :=
  httpMethodToString upload.request.method ++ ascii "\n" ++ upload.request.path ++ ascii "\n" ++
    Bytes.ofNat (declaredSize upload.request) ++ ascii "\n" ++
    upload.request.getHeader (ascii "X-Content-SHA256")

/-- The request hash of an upload. -/
def hash (upload : Upload setup) : Bytes :=
  setup.sha256Hex upload.compared

end Upload

end

section

variable {setup : Setup} {process : Nat}

/-- The content of an upload is its own, whatever had to be written for it. -/
theorem ensures_uploadContent {calm : Prop} {permitted : Choice → Prop}
    (unfailing : ∀ choice, permitted choice → calm → Unfailing choice) (request : HttpRequest)
    (world : World) :
    Program.Ensures (answer setup process) permitted
      (Ends calm (fun content : Content => content.casKey = contentKey setup request ∧
        content.size = declaredSize request) world) (uploadContent setup request) world := by
  unfold uploadContent contentKey declaredSize
  dsimp only
  split
  · refine ensures_call (by simp) ?_
    intro _ existedBefore afterTest _ sameTest _
    change Program.Ensures _ _ _ (DataStore.write setup request.body >>= _) afterTest
    rw [Program.ensures_bind]
    refine (ensures_write unfailing afterTest).mono ?_
    intro result after ended
    have same := sameTest.trans ended.1
    cases result with
    | error status => exact ⟨same, ended.2⟩
    | ok casKey => exact ⟨same, ended.2, rfl⟩
  · exact ⟨.refl world, rfl, rfl⟩

/-- A faultless call of the metadata store. -/
theorem answer_faultless {call : MetaCall} {choice : Choice} {world after : World}
    {answered : call.Ans} (faultless : Faultless choice)
    (step : answer setup process (.metaStore call) choice world = some (answered, after)) :
    ∃ clock, choice = .sql [] clock ∧
      (answered, after.tables, after.caches) =
        call.perform setup.indexed [] clock world.tables world.caches := by
  cases choice with
  | sql faults clock =>
      cases (show faults = [] from faultless)
      simp only [answer, Option.some.injEq, Prod.mk.injEq] at step
      obtain ⟨rfl, rfl⟩ := step
      exact ⟨clock, rfl, rfl⟩
  | _ => simp [answer] at step

/-- Cleaning up only reads the tables. -/
theorem ensures_cleanupContent {permitted : Choice → Prop} (content : Content) (world : World) :
    Program.Ensures (answer setup process) permitted (fun _ after => after.tables = world.tables)
      (cleanupContent setup content) world := by
  have removed {after : World} (same : after.tables = world.tables) :
      Program.Ensures (answer setup process) permitted
        (fun _ last => last.tables = world.tables)
        (DataStore.delete setup content.casKey >>= fun _ => pure ()) after := by
    intro _ _ last _ step
    exact (tables_answer (by simp) step).trans same
  unfold cleanupContent
  split
  · intro choice row after _ step
    obtain ⟨_, _, _, _, effect⟩ := answer_metaStore step
    have same : after.tables = world.tables := (effect True (.inl trivial)).1
    cases row with
    | error status =>
        simp only [Program.bind]
        split
        · exact removed same
        · exact same
    | ok row =>
        simp only [Program.bind]
        split
        · exact removed same
        · exact same
  · rfl

/-- The checks of `PutObject` before it looks at the idempotency key: the names are there,
the bucket is found, there is something to store, and it has the announced digest. -/
structure Accepted (setup : Setup) (request : HttpRequest) (world : World) : Prop where
  bucketNamed : request.getPathParam (ascii "bucket") ≠ []
  objectNamed : request.getPathParam (ascii "object") ≠ []
  bucketFound : (world.tables.foundBucket (request.getPathParam (ascii "bucket"))
    world.caches).isSome
  notEmpty : request.body ≠ [] ∨ request.getHeader (ascii "X-Internal-CAS-Key") ≠ []
  digest : request.getHeader (ascii "X-Content-SHA256") = [] ∨
    request.getHeader (ascii "X-Content-SHA256") = contentKey setup request

/-- `PutObject` refuses a request that fails a check, and otherwise gets to the idempotency
key with the tables as they were. -/
theorem ensures_putObject (calm : Prop) {permitted : Choice → Prop}
    {post : Option HttpResponse → World → Prop} {request : HttpRequest} {world : World}
    (faultless : ∀ choice, permitted choice → Faultless choice)
    (unfailing : ∀ choice, permitted choice → calm → Unfailing choice)
    (refused : ∀ statusCode code message after, statusCode ∈ [400, 404, 500] →
      ¬(calm ∧ Accepted setup request world) → after.tables = world.tables →
      post (HttpResponse.error setup.json statusCode code message []) after)
    (accepted : ∀ bucketId content after, Accepted setup request world →
      content.size = declaredSize request → after.tables = world.tables →
      Program.Ensures (answer setup process) permitted post
        (ObjectHandlers.putIdempotently setup request (request.getPathParam (ascii "bucket"))
          (request.getPathParam (ascii "object")) bucketId content) after) :
    Program.Ensures (answer setup process) permitted post
      (ObjectHandlers.putObject setup request) world := by
  unfold ObjectHandlers.putObject
  dsimp only
  split
  · rename_i unnamed
    refine refused 400 _ _ world (by decide) (fun held => ?_) rfl
    rcases unnamed with bucket | object
    · exact held.2.bucketNamed (by simpa using bucket)
    · exact held.2.objectNamed (by simpa using object)
  · rename_i named
    rw [not_or] at named
    intro choice found afterBucket bucketPermitted bucketStep
    obtain ⟨faults, clock, rfl, -, effect⟩ := answer_metaStore bucketStep
    have none : faults = [] := faultless _ bucketPermitted
    obtain ⟨tablesBucket, -, answers, -⟩ := effect False (.inr none)
    have answers := answers.resolve_left fun failed => failed.1
    cases stored : world.tables.foundBucket (request.getPathParam (ascii "bucket"))
        world.caches with
    | none =>
        rw [stored] at answers
        obtain ⟨message, rfl⟩ := answers
        refine refused 404 _ _ afterBucket (by decide) (fun held => ?_) tablesBucket
        simpa [stored] using held.2.bucketFound
    | some bucket =>
        rw [stored] at answers
        cases answers
        simp only [Program.bind]
        split
        · rename_i empty
          refine refused 400 _ _ afterBucket (by decide) (fun held => ?_) tablesBucket
          rcases held.2.notEmpty with body | streamed
          · exact body (by simpa using empty.1)
          · exact streamed (by simpa using empty.2)
        · rename_i notEmpty
          change Program.Ensures _ _ _ (uploadContent setup request >>= _) afterBucket
          rw [Program.ensures_bind]
          refine (ensures_uploadContent unfailing request afterBucket).mono ?_
          rintro result afterContent ⟨same, ended⟩
          have tablesContent := same.1.trans tablesBucket
          cases result with
          | error status =>
              exact refused 500 _ _ afterContent (by decide) (fun held => ended held.1)
                tablesContent
          | ok content =>
              simp only
              split
              · rename_i mismatch
                rw [Program.ensures_bind]
                refine (ensures_cleanupContent content afterContent).mono ?_
                intro _ after tablesAfter
                refine refused 400 _ _ after (by decide) (fun held => ?_)
                  (tablesAfter.trans tablesContent)
                rcases held.2.digest with absent | equal
                · exact mismatch.1 (by simp [absent])
                · exact mismatch.2 (equal.trans ended.1.symm)
              · rename_i matching
                refine accepted bucket.id content afterContent ?_ ended.2 tablesContent
                refine ⟨by simpa using named.1, by simpa using named.2, by simp [stored], ?_, ?_⟩
                · by_contra neither
                  rw [not_or, not_not, not_not] at neither
                  exact notEmpty (by simp [neither])
                · rw [ended.1] at matching
                  by_cases absent : request.getHeader (ascii "X-Content-SHA256") = []
                  · exact .inl absent
                  · refine .inr (not_not.mp fun different => matching ⟨?_, different⟩)
                    simpa using absent

/-! ## The first upload -/

/-- What an upload that was answered with 200 leaves behind. -/
def Recorded (upload : Upload setup) (key : Bytes) (result : Option HttpResponse)
    (after : World) : Prop :=
  ∀ response, result = some response → response.statusCode = 200 →
    ∃ record, after.tables.idempotencyRecords.lookup key = some record ∧
      record.requestHash = upload.hash ∧ record.responseStatus = 200 ∧
      record.responseBody = response.body

theorem recorded_of_error {upload : Upload setup} {key : Bytes} {statusCode : Nat}
    {code message traceId : Bytes} {after : World} (failure : statusCode ≠ 200) :
    Recorded upload key
      (HttpResponse.error setup.json statusCode code message traceId) after := by
  intro response built succeeded
  rw [HttpResponse.statusCode_of_error setup.json built] at succeeded
  exact absurd succeeded failure

/-- Storing the object ends with its record. -/
theorem recorded_storeObject (upload : Upload setup) {key : Bytes} (nonempty : key ≠ [])
    (bucketName objectKey : Bytes) (bucketId : Int) (content : Content) (world : World) :
    Program.Ensures (answer setup process) Faultless (Recorded upload key)
      (ObjectHandlers.storeObject setup upload.request bucketName objectKey bucketId content key
        upload.hash) world := by
  intro choice stored afterPut _ _
  cases stored with
  | error status =>
      change Program.Ensures _ _ _ (cleanupContent setup content >>= _) afterPut
      rw [Program.ensures_bind]
      refine (ensures_cleanupContent content afterPut).mono ?_
      intro _ after _
      exact recorded_of_error (by decide)
  | ok candidate =>
      change Program.Ensures _ _ _ (reportFree setup candidate >>= _) afterPut
      rw [Program.ensures_bind]
      have reports : Program.Only (HandlerOp setup fun _ => True) (fun _ => True)
          (reportFree setup candidate) := only_reportFree candidate
      refine (reports.ensures (fun _ _ _ _ _ _ _ _ _ => trivial) trivial).mono ?_
      intro _ afterReport _
      split
      · intro response impossible
        exact absurd impossible (by simp)
      · rename_i body printed
        rw [if_neg (by simpa using nonempty)]
        intro choice answered after faultless step
        obtain ⟨clock, -, performed⟩ := answer_faultless faultless step
        rw [MetaCall.perform_recordIdempotency, Prod.mk.injEq, Prod.mk.injEq] at performed
        rintro response ⟨⟩ succeeded
        refine ⟨⟨upload.hash, 200, body, clock.now + MetaStore.defaultTtlSeconds⟩, ?_, rfl, rfl,
          rfl⟩
        rw [performed.2.1]
        exact Table.lookup_set_self ..

/-- The answer that is built from a record. -/
def replay (record : IdempotencyRow) : HttpResponse :=
  { (HttpResponse.empty.setHeader (ascii "Content-Type") (ascii "application/json")) with
    statusCode := record.responseStatus.toNat, body := record.responseBody }

theorem recorded_putIdempotently (upload : Upload setup) {key : Bytes}
    (sent : upload.request.getHeader (ascii "Idempotency-Key") = key) (nonempty : key ≠ [])
    (bucketName objectKey : Bytes) (bucketId : Int) {content : Content}
    (size : content.size = declaredSize upload.request) (world : World) :
    Program.Ensures (answer setup process) Faultless (Recorded upload key)
      (ObjectHandlers.putIdempotently setup upload.request bucketName objectKey bucketId
        content) world := by
  have hash : ObjectHandlers.requestHash setup upload.request content.size
      (upload.request.getHeader (ascii "X-Content-SHA256")) = upload.hash := by
    rw [size]
    rfl
  subst key
  unfold ObjectHandlers.putIdempotently
  simp only [hash]
  rw [if_neg (by simpa using nonempty)]
  intro choice found after faultless step
  obtain ⟨clock, -, performed⟩ := answer_faultless faultless step
  rw [MetaCall.perform_checkIdempotency, Prod.mk.injEq, Prod.mk.injEq] at performed
  obtain ⟨rfl, tables, -⟩ := performed
  cases live : MetaCall.liveRecord clock world.tables
      (upload.request.getHeader (ascii "Idempotency-Key")) with
  | none => exact recorded_storeObject upload nonempty bucketName objectKey bucketId content after
  | some record =>
      simp only [Program.bind]
      split
      · exact recorded_of_error (by decide)
      · rename_i sameHash
        rintro response ⟨⟩ succeeded
        obtain ⟨stored, lookup, alive⟩ := Option.bind_eq_some_iff.mp live
        split at alive
        · contradiction
        · cases alive
          refine ⟨stored, by rw [tables]; exact lookup, by simpa using sameHash, ?_, rfl⟩
          change stored.responseStatus.toNat = 200 at succeeded
          omega

/-- An upload that is answered with 200 has left its record. -/
theorem recorded_putObject (upload : Upload setup) {key : Bytes}
    (sent : upload.request.getHeader (ascii "Idempotency-Key") = key) (nonempty : key ≠ [])
    (world : World) :
    Program.Ensures (answer setup process) Faultless (Recorded upload key)
      (ObjectHandlers.putObject setup upload.request) world := by
  refine ensures_putObject False (fun _ => id) (fun _ _ => False.elim) ?_ ?_
  · intro statusCode code message after failure _ _
    refine recorded_of_error ?_
    rintro rfl
    exact absurd failure (by decide)
  · intro bucketId content after _ size _
    exact recorded_putIdempotently upload sent nonempty _ _ bucketId size after

/-! ## The second upload -/

/-- No call fails, and each is made before the time at which the server takes the record to
expire. -/
def Prompt (record : IdempotencyRow) : Choice → Prop
  | .sql faults clock => faults = [] ∧ clock.now < record.expiresAt - clock.standardOffset
  | .failed _ => False
  | _ => True

/-- What `PutObject` ends in while there is a record for its key. -/
structure Settled (upload : Upload setup) (record : IdempotencyRow) (before : World)
    (result : Option HttpResponse) (after : World) : Prop where
  tables : after.tables = before.tables
  accepted : Accepted setup upload.request before →
    result = if record.requestHash = upload.hash then some (replay record)
      else HttpResponse.conflict setup.json (ascii "Idempotency conflict") []
  refused : ¬Accepted setup upload.request before →
    ∃ statusCode code message, statusCode ∈ [400, 404, 500] ∧
      result = HttpResponse.error setup.json statusCode code message []

/-- The record that the check finds: its time has passed through `mktime`. -/
theorem liveRecord_of_prompt {record : IdempotencyRow} {tables : Tables} {key : Bytes}
    {clock : Clock} (kept : tables.idempotencyRecords.lookup key = some record)
    (alive : clock.now < record.expiresAt - clock.standardOffset) :
    MetaCall.liveRecord clock tables key =
      some { record with expiresAt := record.expiresAt - clock.standardOffset } := by
  unfold MetaCall.liveRecord
  rw [kept, Option.bind_some, if_neg (not_le.mpr alive)]

theorem settled_putIdempotently (upload : Upload setup) {key : Bytes}
    (sent : upload.request.getHeader (ascii "Idempotency-Key") = key) (nonempty : key ≠ [])
    {record : IdempotencyRow} {before world : World} (same : world.tables = before.tables)
    (kept : world.tables.idempotencyRecords.lookup key = some record)
    (accepted : Accepted setup upload.request before) (bucketName objectKey : Bytes)
    (bucketId : Int) {content : Content} (size : content.size = declaredSize upload.request) :
    Program.Ensures (answer setup process) (Prompt record) (Settled upload record before)
      (ObjectHandlers.putIdempotently setup upload.request bucketName objectKey bucketId
        content) world := by
  have hash : ObjectHandlers.requestHash setup upload.request content.size
      (upload.request.getHeader (ascii "X-Content-SHA256")) = upload.hash := by
    rw [size]
    rfl
  subst key
  unfold ObjectHandlers.putIdempotently
  simp only [hash]
  rw [if_neg (by simpa using nonempty)]
  intro choice found after prompt step
  have faultless : Faultless choice := by
    cases choice with
    | sql faults clock => exact prompt.1
    | _ => trivial
  obtain ⟨clock, rfl, performed⟩ := answer_faultless faultless step
  rw [MetaCall.perform_checkIdempotency, liveRecord_of_prompt kept prompt.2, Prod.mk.injEq,
    Prod.mk.injEq] at performed
  obtain ⟨rfl, tables, -⟩ := performed
  simp only [Program.bind]
  split
  · rename_i different
    refine ⟨tables.trans same, fun _ => ?_, fun notAccepted => absurd accepted notAccepted⟩
    rw [if_neg different]
  · rename_i equal
    refine ⟨tables.trans same, fun _ => ?_, fun notAccepted => absurd accepted notAccepted⟩
    rw [if_pos (not_not.mp equal)]
    rfl

theorem settled_putObject (upload : Upload setup) {key : Bytes}
    (sent : upload.request.getHeader (ascii "Idempotency-Key") = key) (nonempty : key ≠ [])
    {record : IdempotencyRow} {world : World}
    (kept : world.tables.idempotencyRecords.lookup key = some record) :
    Program.Ensures (answer setup process) (Prompt record) (Settled upload record world)
      (ObjectHandlers.putObject setup upload.request) world := by
  refine ensures_putObject True ?_ ?_ ?_ ?_
  · intro choice prompt
    cases choice with
    | sql faults clock => exact prompt.1
    | _ => trivial
  · intro choice prompt _
    cases choice with
    | failed text => exact prompt
    | _ => trivial
  · intro statusCode code message after failure refused same
    refine ⟨same, fun accepted => absurd ⟨trivial, accepted⟩ refused, fun _ => ?_⟩
    exact ⟨statusCode, code, message, failure, rfl⟩
  · intro bucketId content after accepted size same
    exact settled_putIdempotently upload sent nonempty same (same ▸ kept) accepted _ _ bucketId
      size

/-! ## Two uploads with one key -/

/-- Two uploads are the same: method, path and bytes. -/
def Upload.Same (first second : Upload setup) : Prop :=
  first.request.method = second.request.method ∧ first.request.path = second.request.path ∧
    first.content = second.content

/-- The second upload is answered with the recorded response, and then it is the same as the
first, or it is refused as a conflict; neither touches the objects and the blobs. -/
def KeptApart (first second : Upload setup) (record : IdempotencyRow) (before : World)
    (result : Option HttpResponse) (after : World) : Prop :=
  ((result = some (replay record) ∧ first.Same second) ∨
    result = HttpResponse.conflict setup.json (ascii "Idempotency conflict") []) ∧
  after.tables.objects = before.tables.objects ∧ after.tables.casBlobs = before.tables.casBlobs

theorem exists_conflict (strict : setup.json.Strict) :
    ∃ response, HttpResponse.conflict setup.json (ascii "Idempotency conflict") [] =
      some response := by
  have printed := strict (HttpResponse.errorBody (ascii "Conflict")
    (ascii "Idempotency conflict") [])
  rw [show (HttpResponse.errorBody _ _ _).isUtf8 = true by decide] at printed
  obtain ⟨body, printed⟩ := Option.isSome_iff_exists.mp printed
  refine ⟨(HttpResponse.ofStatus 409).setJsonBody body, ?_⟩
  simp [HttpResponse.conflict, HttpResponse.error, printed]

/-- A settled second upload is kept apart from the first when it passes the checks and no two
uploads are mixed up. -/
theorem keptApart_iff (strict : setup.json.Strict) {first second : Upload setup}
    (noCollision : first.hash = second.hash → first.compared = second.compared)
    {record : IdempotencyRow} (recorded : record.requestHash = first.hash)
    (succeeded : record.responseStatus = 200) {before after : World}
    {result : Option HttpResponse} (settled : Settled second record before result after) :
    KeptApart first second record before result after ↔
      Accepted setup second.request before ∧
        (first.compared = second.compared → first.Same second) := by
  obtain ⟨conflict, conflicts⟩ := exists_conflict strict
  have conflictCode := HttpResponse.statusCode_of_error setup.json conflicts
  have replayCode : (replay record).statusCode = 200 := by simp [replay, succeeded]
  constructor
  · rintro ⟨answered, -⟩
    by_cases accepted : Accepted setup second.request before
    · refine ⟨accepted, fun equal => ?_⟩
      have sameHash : record.requestHash = second.hash :=
        recorded.trans (congrArg setup.sha256Hex equal)
      have result := settled.accepted accepted
      rw [if_pos sameHash] at result
      rcases answered with ⟨-, same⟩ | refused
      · exact same
      · rw [result, conflicts, Option.some.injEq] at refused
        rw [← refused, replayCode] at conflictCode
        exact absurd conflictCode (by decide)
    · obtain ⟨statusCode, code, message, failure, built⟩ := settled.refused accepted
      exfalso
      rcases answered with ⟨replayed, -⟩ | refused
      · have code := HttpResponse.statusCode_of_error setup.json (built.symm.trans replayed)
        rw [← code, replayCode] at failure
        exact absurd failure (by decide)
      · have code := HttpResponse.statusCode_of_error setup.json
          (built.symm.trans (refused.trans conflicts))
        rw [← code, conflictCode] at failure
        exact absurd failure (by decide)
  · rintro ⟨accepted, distinguished⟩
    refine ⟨?_, by rw [settled.tables], by rw [settled.tables]⟩
    have result := settled.accepted accepted
    by_cases equal : record.requestHash = second.hash
    · rw [if_pos equal] at result
      exact .inl ⟨result, distinguished (noCollision (recorded.symm.trans equal))⟩
    · rw [if_neg equal] at result
      exact .inr result

/-- An upload with the key of an earlier one that was answered with 200.  The record of the
first, which is still there, has its response.  While it has not expired, the second is
replayed only if it is the same, and is refused with 409 otherwise, and objects and blobs
stay as they are, exactly when it passes the checks of `PutObject` and differs in method,
path and bytes only where the compared texts differ. -/
theorem idempotency_keys_keep_uploads_apart (strict : setup.json.Strict)
    {first second : Upload setup} {key : Bytes} (nonempty : key ≠ [])
    (firstKey : first.request.getHeader (ascii "Idempotency-Key") = key)
    (secondKey : second.request.getHeader (ascii "Idempotency-Key") = key)
    (noCollision : first.hash = second.hash → first.compared = second.compared)
    {firstProcess : Nat} {firstChoices : List Choice} {source middle : World}
    {response : HttpResponse} (faultless : ∀ choice ∈ firstChoices, Faultless choice)
    (firstRun : Program.execute (answer setup firstProcess)
      (ObjectHandlers.putObject setup first.request) firstChoices source =
        some (some response, middle))
    (succeeded : response.statusCode = 200) :
    ∃ record, middle.tables.idempotencyRecords.lookup key = some record ∧
      (replay record).statusCode = response.statusCode ∧ (replay record).body = response.body ∧
      ∀ (secondProcess : Nat) (secondChoices : List Choice) (later target : World)
        (result : Option HttpResponse),
        later.tables.idempotencyRecords.lookup key = some record →
        (∀ choice ∈ secondChoices, Prompt record choice) →
        Program.execute (answer setup secondProcess)
          (ObjectHandlers.putObject setup second.request) secondChoices later =
            some (result, target) →
        (KeptApart first second record later result target ↔
          Accepted setup second.request later ∧
            (first.compared = second.compared → first.Same second)) := by
  have ended := (recorded_putObject first firstKey nonempty source).of_execute faultless firstRun
  obtain ⟨record, kept, recorded, status, body⟩ := ended response rfl succeeded
  refine ⟨record, kept, by simp [replay, status, succeeded], body, ?_⟩
  intro secondProcess secondChoices later target result keptLater prompt secondRun
  have settled := (settled_putObject second secondKey nonempty keptLater).of_execute prompt
    secondRun
  exact keptApart_iff strict noCollision recorded status settled

/-! ### Uploads of one byte -/

/-- A configuration with the digests of the uploads below. -/
def oneByteSetup : Setup :=
  Setup.sample
    [(ascii "a", "ca978112ca1bbdcafac231b39a23dc4da786eff8147c4e72b9807785afee48bb"),
      (ascii "b", "3e23e8160039594a33894f6564e1b1348bbd7a0088d42c4acb73eeaed59c009d"),
      (ascii "PUT\n/buckets/abc/objects/k\n1\n",
        "b8d87f618e1441445abe3674ad10861133b2df2e0bb89e9accb6f26fb7eaef62"),
      (ascii "PUT\n/buckets/abc/objects/l\n1\n",
        "4633802071a8fe65ea0ad1cb312f8cdabd24850dc0f3f7d45f359a9710b93506")] []

/-- `PUT` of one byte, which was streamed, to an object of the bucket `abc`, with the
idempotency key `i`. -/
def oneByteRequest (object content : Bytes) : HttpRequest :=
  { ((((HttpRequest.empty.setPathParam (ascii "bucket") (ascii "abc")).setPathParam
      (ascii "object") object).setHeader (ascii "Idempotency-Key") (ascii "i")).setHeader
      (ascii "X-Internal-CAS-Key") (oneByteSetup.sha256Hex content)).setHeader
      (ascii "X-Internal-Size") (Bytes.ofNat content.length) with
    method := .PUT
    path := ascii "/buckets/abc/objects/" ++ object }

/-- The upload of one byte. -/
def oneByte (object content : Bytes) : Upload oneByteSetup where
  request := oneByteRequest object content
  content := content
  carries := .streamed rfl rfl

/-- The bucket `abc`, without objects. -/
def bucketWorld : World where
  tables := { Tables.empty with buckets := Table.set 1 (ascii "abc") ∅ }
  caches := ⟨∅, none⟩
  files := ∅
  makers := ∅
  pendingDeletes := []
  uploads := ∅

/-- Calls of the metadata store that succeed. -/
def succeeding (count : Nat) : List Choice :=
  List.replicate count (.sql [] ⟨0, 0⟩)

/-- The upload of `a` to the object `k`, before which there is only the bucket. -/
def firstUpload : Option (Option HttpResponse × World) :=
  Program.execute (answer oneByteSetup 0)
    (ObjectHandlers.putObject oneByteSetup (oneByte (ascii "k") (ascii "a")).request)
    (succeeding 4) bucketWorld

/-- The same key with another object is refused. -/
theorem idempotency_keys_keep_uploads_apart_other_object :
    ∃ response middle record result target, firstUpload = some (some response, middle) ∧
      middle.tables.idempotencyRecords.lookup (ascii "i") = some record ∧
      Program.execute (answer oneByteSetup 1)
        (ObjectHandlers.putObject oneByteSetup (oneByte (ascii "l") (ascii "a")).request)
        (succeeding 2) middle = some (result, target) ∧
      KeptApart (oneByte (ascii "k") (ascii "a")) (oneByte (ascii "l") (ascii "a")) record middle
        result target := by
  have faultless : ∀ choice ∈ succeeding 4, Faultless choice := by
    intro choice member
    cases List.eq_of_mem_replicate member
    rfl
  have apart := @idempotency_keys_keep_uploads_apart oneByteSetup (JsonLibrary.strict_plain [])
    (oneByte (ascii "k") (ascii "a")) (oneByte (ascii "l") (ascii "a")) (ascii "i") (by decide)
    rfl rfl (fun sameHash => absurd sameHash (by decide +kernel)) 0 (succeeding 4) bucketWorld
    _ _ faultless rfl rfl
  obtain ⟨record, kept, -, -, apart⟩ := apart
  cases kept
  refine ⟨_, _, _, _, _, rfl, rfl, rfl, (apart 1 (succeeding 2) _ _ _ rfl ?_ rfl).mpr ?_⟩
  · intro choice member
    cases List.eq_of_mem_replicate member
    exact ⟨rfl, by decide⟩
  · refine ⟨⟨by decide, by decide, rfl, .inr (by decide), .inl rfl⟩, ?_⟩
    intro equal
    exact absurd equal (by decide +kernel)

/-- The same key with another byte for the same object: the second upload gets the response
of the first, and its byte is dropped. -/
theorem idempotency_key_swallows_another_upload :
    ∃ response middle record target, firstUpload = some (some response, middle) ∧
      response.statusCode = 200 ∧
      middle.tables.idempotencyRecords.lookup (ascii "i") = some record ∧
      (∀ choice ∈ succeeding 2, Prompt record choice) ∧
      Program.execute (answer oneByteSetup 1)
        (ObjectHandlers.putObject oneByteSetup (oneByte (ascii "k") (ascii "b")).request)
        (succeeding 2) middle = some (some (replay record), target) ∧
      ¬KeptApart (oneByte (ascii "k") (ascii "a")) (oneByte (ascii "k") (ascii "b")) record middle
        (some (replay record)) target := by
  refine ⟨_, _, _, _, rfl, rfl, rfl, ?_, rfl, ?_⟩
  · intro choice member
    cases List.eq_of_mem_replicate member
    exact ⟨rfl, by decide⟩
  · rintro ⟨⟨-, same⟩ | refused, -⟩
    · exact absurd same.2.2 (by decide)
    · have code := HttpResponse.statusCode_of_error _ refused.symm
      exact absurd code (by decide)

end

end MiniS3.Api
