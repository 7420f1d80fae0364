import PixelForge.Api.Accounting
import PixelForge.Shared.Wrappers

/-! # The three size checks of an upload

A declared body length that is too large is refused before the file is read, `_read_limited` stops when
the file is too large, and `validate_upload` looks at the bytes that were read. `MultipartRequest` is a
request as it arrives: the file in chunks, and the bytes of the body that are not the file's.
-/
set_option autoImplicit false

namespace PixelForge
open Effects

def chunkBytes : Nat := 1048576

structure MultipartRequest where
  chunks : List Bytes
  /-- What one read gives, before the one that gives nothing. -/
  chunk_size : ∀ c ∈ chunks, c ≠ [] ∧ c.length ≤ chunkBytes
  /-- Framing, part headers and other form fields. -/
  overhead : Nat
  declaresLength : Bool
  filename : Option String
  contentType : Option String

namespace MultipartRequest

variable (req : MultipartRequest)

def data : Bytes := req.chunks.flatten

def size : Nat := req.data.length

def bodyLength : Nat := req.size + req.overhead

def contentLength : Option String :=
  if req.declaresLength then some req.bodyLength.repr else none

def file : UploadFile where
  reads := req.chunks.map .ok ++ [.ok []]
  filename := req.filename
  contentType := req.contentType
  foreign := by
    intro e he
    obtain he | he := List.mem_append.mp he
    · obtain ⟨c, -, hc⟩ := List.mem_map.mp he
      cases hc
    · cases List.mem_singleton.mp he

end MultipartRequest

namespace Routes

/-! ## The reading loop -/

/-- The loop of `_read_limited` between two reads. -/
structure Reading where
  chunks : List Bytes
  total : Nat
  reads : List (Except Exc Bytes)

/-- What the loop holds when the next chunk has been read. -/
def Reading.held (r : Reading) : Nat :=
  r.chunks.flatten.length +
    match r.reads with
    | .ok chunk :: _ => chunk.length
    | _ => 0

/-- The rounds of the loop. -/
inductive Visits (maxBytes : Int) : Reading → Reading → Prop
  | refl (r : Reading) : Visits maxBytes r r
  | next {chunks : List Bytes} {total : Nat} {chunk : Bytes} {reads : List (Except Exc Bytes)}
      {r : Reading} (hne : chunk ≠ []) (hfits : ¬ ((total + chunk.length : Nat) : Int) > maxBytes)
      (h : Visits maxBytes ⟨chunks ++ [chunk], total + chunk.length, reads⟩ r) :
      Visits maxBytes ⟨chunks, total, .ok chunk :: reads⟩ r

/-- The rounds are those of `readLoop`. -/
theorem Visits.readLoop_eq {maxBytes : Int} {a b : Reading} (h : Visits maxBytes a b) :
    readLoop maxBytes a.chunks a.total a.reads = readLoop maxBytes b.chunks b.total b.reads := by
  induction h with
  | refl => rfl
  | next hne hfits _ ih =>
    rw [readLoop, if_neg hne, if_neg hfits]
    exact ih

/-- The total is that of the chunks, and within the limit. -/
structure Reading.Within (maxBytes : Int) (r : Reading) : Prop where
  total : r.total = r.chunks.flatten.length
  limit : (r.total : Int) ≤ maxBytes
  chunk : ∀ c, .ok c ∈ r.reads → c.length ≤ chunkBytes

theorem Visits.within {maxBytes : Int} {a b : Reading} (h : Visits maxBytes a b)
    (ha : a.Within maxBytes) : b.Within maxBytes := by
  induction h with
  | refl => exact ha
  | next _ hfits _ ih =>
    refine ih ⟨?_, ?_, fun c hc => ha.chunk c (List.mem_cons_of_mem _ hc)⟩
    · rw [List.flatten_append, List.length_append, ← ha.total, List.flatten_singleton]
    · exact Int.not_lt.mp hfits

theorem Reading.Within.held_le {maxBytes : Int} {r : Reading} (h : r.Within maxBytes) :
    (r.held : Int) ≤ maxBytes + chunkBytes := by
  obtain ⟨htotal, hlimit, hchunk⟩ := h
  unfold Reading.held
  rw [← htotal]
  split
  · rename_i chunk reads hreads
    have hle := hchunk chunk (hreads ▸ List.mem_cons_self)
    push_cast
    omega
  · push_cast
    omega

/-- **What `_read_limited` returns.** -/
theorem readLoop_chunks (maxBytes : Int) {chunks : List Bytes} (hne : ∀ c ∈ chunks, c ≠ [])
    (kept : List Bytes) (hkept : (kept.flatten.length : Int) ≤ maxBytes) :
    readLoop maxBytes kept kept.flatten.length (chunks.map .ok ++ [.ok []]) =
      if ((kept.flatten.length + chunks.flatten.length : Nat) : Int) ≤ maxBytes then
        pure (kept.flatten ++ chunks.flatten)
      else Fallible.raise (tooLarge maxBytes) := by
  induction chunks generalizing kept with
  | nil =>
    rw [List.flatten_nil, List.length_nil, List.append_nil, Nat.add_zero, if_pos hkept]
    rfl
  | cons chunk chunks ih =>
    have hchunk : chunk ≠ [] := hne chunk List.mem_cons_self
    have hsnoc : (kept ++ [chunk]).flatten = kept.flatten ++ chunk := by
      rw [List.flatten_append, List.flatten_singleton]
    have hlength : (kept ++ [chunk]).flatten.length = kept.flatten.length + chunk.length := by
      rw [hsnoc, List.length_append]
    rw [List.map_cons, List.cons_append, readLoop, if_neg hchunk]
    by_cases hfits : ((kept.flatten.length + chunk.length : Nat) : Int) > maxBytes
    · rw [if_pos hfits, if_neg]
      rw [List.flatten_cons, List.length_append]
      omega
    · have hrest := ih (fun c hc => hne c (List.mem_cons_of_mem _ hc)) (kept ++ [chunk])
        (by rw [hlength]; omega)
      rw [hlength] at hrest
      rw [if_neg hfits, hrest, hsnoc, List.flatten_cons, List.length_append, List.append_assoc,
        Nat.add_assoc]

/-! ## The declared length -/

theorem foldl_digits {cs : List Char} (hcs : ∀ c ∈ cs, c.isDigit = true) (n : Nat) :
    cs.foldl (fun (n : Int) c => 10 * n + (c.toNat - 48)) (n : Int) = (Nat.ofDigitChars 10 cs n : Int) := by
  induction cs generalizing n with
  | nil => rw [Nat.ofDigitChars_nil, List.foldl_nil]
  | cons c cs ih =>
    have hc : 48 ≤ c.toNat := Char.isDigit_iff_toNat.mp (hcs c List.mem_cons_self) |>.1
    have hstep : 10 * (n : Int) + (c.toNat - 48) = ((10 * n + (c.toNat - '0'.toNat) : Nat) : Int) := by
      rw [show '0'.toNat = 48 from rfl]
      omega
    rw [List.foldl_cons, Nat.ofDigitChars_cons, hstep]
    exact ih (fun c hc => hcs c (List.mem_cons_of_mem _ hc)) _

/-- A length that the server let through is read as it is. -/
theorem checkDeclaredLength_repr (maxBytes : Int) {n : Nat} (hn : n < 10 ^ 20) :
    checkDeclaredLength maxBytes (some n.repr) =
      if (n : Int) > maxBytes + multipartOverheadBytes then Fallible.raise (tooLarge maxBytes)
      else pure () := by
  have hdigits : ∀ c ∈ Nat.toDigits 10 n, c.isDigit = true := fun c hc =>
    Nat.isDigit_of_mem_toDigits (by decide) (by decide) hc
  have hall : n.repr.toList.all Char.isDigit = true := by
    rw [Nat.toList_repr]
    exact List.all_eq_true.mpr hdigits
  have hlength : n.repr.length ≤ 20 := by
    rw [← String.length_toList, Nat.toList_repr]
    exact (Nat.length_toDigits_le_iff (by decide) (by decide)).mpr hn
  have hne : n.repr ≠ "" := by
    intro h
    have hnil : Nat.toDigits 10 n = [] := by
      rw [← Nat.toList_repr, h]
      rfl
    exact Nat.toDigits_ne_nil hnil
  have hisdigit : isdigit n.repr = true := by
    unfold isdigit
    rw [decide_eq_true hne, Bool.true_and, List.all_eq_true]
    intro c hc
    rw [List.all_eq_true.mp hall c hc]
    rfl
  unfold checkDeclaredLength
  dsimp only
  rw [if_pos hisdigit, intOfDigits_of_digits hall (by omega), Nat.toList_repr]
  have hvalue := foldl_digits hdigits 0
  rw [Nat.ofDigitChars_ten_toDigits] at hvalue
  rw [hvalue]

end Routes

/-! ## The status -/

/-- The status that an exception leads to. -/
def Exc.answered : Exc → Nat
  | .uploadRejected _ status _ _ => status
  | .enqueueFailed _ => 503
  | .transientDependency _ _ => 503
  | _ => 500

section Status

variable {ext : Externals} {svc : JobService}

/-- What is not the answer to a file that is too large. -/
abbrev Exc.Other (e : Exc) : Prop := e.answered ≠ 413

abbrev Otherwise {α : Type} (ext : Externals) (m : Py α) : Prop :=
  Fallible.Raises (recorded ext) Exc.Other m

/-- What a call or the code after the size check leads to. -/
abbrev Exc.Usual (e : Exc) : Prop := e.answered ∈ [400, 415, 500, 503]

abbrev Usually {α : Type} (ext : Externals) (m : Py α) : Prop :=
  Fallible.Raises (recorded ext) Exc.Usual m

theorem Usually.otherwise {α : Type} {m : Py α} (hm : Usually ext m) : Otherwise ext m :=
  hm.mono fun e he hlarge => by
    rw [Exc.Usual, hlarge] at he
    exact absurd he (by decide)

theorem Exc.usual_of_call {e : Exc} (h : e.isOwn = false ∨ e.isGiveUp = true) : e.Usual := by
  cases e with
  | uploadRejected d s c m => obtain h | h := h <;> cases h
  | enqueueFailed text => exact (by decide : 503 ∈ [400, 415, 500, 503])
  | transientDependency text operation => exact (by decide : 503 ∈ [400, 415, 500, 503])
  | _ => exact (by decide : 500 ∈ [400, 415, 500, 503])

theorem usually_ask {q : Request} (hq : q.isPillow = false) : Usually ext (ask q) := by
  intro s
  refine (wp_ask _ _ _ _).mpr ⟨trivial, ?_⟩
  rintro (e | v) _ ⟨ha, rfl⟩
  · exact Exc.usual_of_call (.inl (ha.not_own hq))
  · trivial

theorem usually_retry (q : Request) (policy : RetryPolicy) (operation : String)
    (hq : q.isPillow = false := by rfl) :
    Usually ext (callWithRetry policy operation noSwallow (ask q)) := by
  intro s
  refine wp_callWithRetry (J := fun _ => True) policy operation (fun _ _ => trivial)
    (fun _ q' _ hwait => ⟨trivial, ?_⟩) (fun _ _ _ _ _ => trivial) (fun _ _ _ _ _ _ => trivial)
    (fun _ e _ _ he _ => Exc.usual_of_call (.inl (he.1.not_own hq)))
    (fun _ e _ he => Exc.usual_of_call (.inr he)) trivial
  rintro r _ ⟨ha, rfl⟩
  exact ⟨trivial, ha.steady (by cases q' <;> first | rfl | cases hwait)⟩

theorem usually_validateUpload (contentType : Option String) {sizeBytes : Nat}
    (hsize : (sizeBytes : Int) ≤ svc.config.maxUploadBytes) :
    Usually ext (svc.validateUpload ext contentType sizeBytes) := by
  unfold JobService.validateUpload
  rw [if_neg (Int.not_lt.mpr hsize)]
  dsimp only
  split
  · exact .pure _
  · exact .raise (by decide : 415 ∈ [400, 415, 500, 503])

theorem usually_probeUpload (hpillow : ext.VerifyForeign) (data : Bytes) :
    Usually ext (JobService.probeUpload data) := by
  have hprobe : Fallible.Raises (recorded ext) (fun e => e.isImage = true ∨ e.isOwn = false)
      (probeImage data) := by
    unfold probeImage
    split
    · exact .raise (.inl rfl)
    · have hask : Fallible.Raises (recorded ext) (fun e => e.isOwn = false)
          (ask (.verifyImage data)) := by
        intro s
        refine (wp_ask _ _ _ _).mpr ⟨trivial, ?_⟩
        rintro (e | v) _ ⟨ha, rfl⟩
        · obtain ⟨seed, he⟩ := answers_verifyImage ha
          exact hpillow seed data e he
        · trivial
      refine hask.tryElse (fun e he => .raise (probeError_cases he)) fun header => ?_
      dsimp only
      split
      · exact .raise (.inl rfl)
      · split
        · exact .raise (.inl rfl)
        · exact .pure _
  refine hprobe.tryExcept fun e he => ?_
  cases e with
  | imageProcessing text => exact .raise (by decide : 400 ∈ [400, 415, 500, 503])
  | uploadRejected d s c m => simp [Exc.isImage, Exc.isOwn] at he
  | enqueueFailed text => exact .raise (by decide : 503 ∈ [400, 415, 500, 503])
  | transientDependency text operation => exact .raise (by decide : 503 ∈ [400, 415, 500, 503])
  | _ => exact .raise (by decide : 500 ∈ [400, 415, 500, 503])

theorem usually_enqueue (u : Upload) (record : JobRecord) :
    Usually ext (svc.enqueue ext u record) := by
  have hsend : ∀ body attributes, Usually ext (svc.clients.queue.sendJob body attributes) :=
    fun body attributes => (usually_retry (.sendMessage ..) _ _).tryExcept fun e he =>
      (usually_ask rfl).bind fun _ => .raise he
  have hput : ∀ e, Usually ext (svc.markUnqueueable record e) := fun e => by
    have hmark : Usually ext (do
        let updatedAt : String ← ask .utcNow
        let completedAt : String ← ask .utcNow
        svc.clients.table.putJob (JobService.unqueueable record e updatedAt completedAt) : Py Unit) :=
      (usually_ask rfl).bind fun _ => (usually_ask rfl).bind fun _ => usually_retry (.putItem _) _ _
    exact hmark.tryExcept fun _ _ => .pure ()
  refine (usually_ask rfl).bind fun context => (hsend _ _).tryElse (fun e _ => ?_) fun mid => ?_
  · exact (hput e).bind fun _ => .raise (by decide : 503 ∈ [400, 415, 500, 503])
  · exact (usually_ask rfl).bind fun _ => (usually_ask rfl).bind fun _ => .pure _

theorem usually_admitted (hpillow : ext.VerifyForeign) (u : Upload) :
    Usually ext (do
      let probe ← JobService.probeUpload u.data
      let jobId : String ← ask .uuid4
      let traceId : Option String ← ask .currentTraceId
      let createdAt : String ← ask .utcNow
      let updatedAt : String ← ask .utcNow
      svc.submit ext u (JobService.newRecord ext u probe jobId traceId createdAt updatedAt)) :=
  (usually_probeUpload hpillow _).bind fun probe =>
    (usually_ask rfl).bind fun jobId => (usually_ask rfl).bind fun traceId =>
      (usually_ask rfl).bind fun createdAt => (usually_ask rfl).bind fun updatedAt =>
        (usually_retry (.putObject ..) _ _).bind fun _ =>
          (usually_retry (.putItem _) _ _).bind fun _ => usually_enqueue u _

theorem usually_createJob (hpillow : ext.VerifyForeign) {u : Upload}
    (hsize : (u.data.length : Int) ≤ svc.config.maxUploadBytes) :
    Usually ext (svc.createJob ext u) :=
  (usually_validateUpload _ hsize).bind fun _ => usually_admitted hpillow u

/-! ## The route -/

/-- What the route takes for too large: the file, or the body with the margin. -/
def MultipartRequest.TooLarge (req : MultipartRequest) (maxBytes : Int) : Prop :=
  (req.size : Int) > maxBytes ∨
    req.declaresLength = true ∧ (req.bodyLength : Int) > maxBytes + Routes.multipartOverheadBytes

variable {req : MultipartRequest} {maxBytes : Int}

theorem readLimited_file (hmax : 0 ≤ maxBytes) :
    Routes.readLimited req.file maxBytes =
      if (req.size : Int) ≤ maxBytes then pure req.data else Fallible.raise (Routes.tooLarge maxBytes) := by
  have hread := Routes.readLoop_chunks maxBytes (fun c hc => (req.chunk_size c hc).1) [] hmax
  rw [List.flatten_nil, List.length_nil, Nat.zero_add, List.nil_append] at hread
  exact hread

theorem checkDeclaredLength_request (hbody : req.bodyLength < 10 ^ 20) :
    Routes.checkDeclaredLength maxBytes req.contentLength =
      if req.declaresLength = true ∧ (req.bodyLength : Int) > maxBytes + Routes.multipartOverheadBytes
      then Fallible.raise (Routes.tooLarge maxBytes) else pure () := by
  unfold MultipartRequest.contentLength
  cases req.declaresLength with
  | false => rfl
  | true =>
    rw [if_pos rfl, Routes.checkDeclaredLength_repr maxBytes hbody]
    simp only [true_and]

theorem held_file (hmax : 0 ≤ maxBytes) {b : Routes.Reading}
    (h : Routes.Visits maxBytes ⟨[], 0, req.file.reads⟩ b) : (b.held : Int) ≤ maxBytes + chunkBytes := by
  refine (h.within ⟨rfl, hmax, fun c hc => ?_⟩).held_le
  obtain hc | hc := List.mem_append.mp hc
  · obtain ⟨c', hc', he⟩ := List.mem_map.mp hc
    obtain rfl := Except.ok.inj he
    exact (req.chunk_size _ hc').2
  · obtain rfl := Except.ok.inj (List.mem_singleton.mp hc)
    exact Nat.zero_le _

theorem wp_handleException_status (e : Exc) (h : History) :
    Prog.wp (recorded ext) (Routes.handleException e) (fun r _ => responseStatus r = e.answered) h := by
  cases e with
  | uploadRejected d status code result =>
    refine ⟨trivial, ?_⟩
    rintro r _ ⟨ha, rfl⟩
    obtain ⟨v, rfl⟩ := ha.steady rfl
    rfl
  | _ => rfl

theorem postJobs_tooLarge (hmax : 0 ≤ svc.config.maxUploadBytes) (hbody : req.bodyLength < 10 ^ 20)
    (hlarge : req.TooLarge svc.config.maxUploadBytes) :
    Routes.postJobs svc ext req.contentLength req.file =
      Routes.handleException (Routes.tooLarge svc.config.maxUploadBytes) := by
  unfold Routes.postJobs Routes.createJob Routes.accept
  rw [checkDeclaredLength_request hbody, readLimited_file hmax]
  split
  · rfl
  · rename_i hdeclared
    rw [if_neg (Int.not_le.mpr (hlarge.resolve_right hdeclared))]
    rfl

theorem wp_postJobs_fits (hpillow : ext.VerifyForeign) (hmax : 0 ≤ svc.config.maxUploadBytes)
    (hbody : req.bodyLength < 10 ^ 20) (hfits : ¬ req.TooLarge svc.config.maxUploadBytes) (h : History) :
    Prog.wp (recorded ext) (Routes.postJobs svc ext req.contentLength req.file)
      (fun r _ => responseStatus r ≠ 413) h := by
  obtain ⟨hsize, hdeclared⟩ := not_or.mp hfits
  have hsize : (req.size : Int) ≤ svc.config.maxUploadBytes := Int.not_lt.mp hsize
  have haccept : Otherwise ext (Routes.accept svc ext req.file) := by
    unfold Routes.accept
    rw [readLimited_file hmax, if_pos hsize]
    have hjob : Otherwise ext (do
        let data ← (pure req.data : Py Bytes)
        svc.createJob ext ⟨data, req.file.filename, req.file.contentType⟩) :=
      (usually_createJob (u := ⟨req.data, req.file.filename, req.file.contentType⟩) hpillow
        hsize).otherwise
    refine hjob.tryExcept fun e he => ?_
    split
    · exact .raise he
    · exact (usually_ask rfl).otherwise.bind fun _ => .raise he
  have hcreate : Fallible.wp (recorded ext) (Routes.createJob svc ext req.contentLength req.file)
      (fun response _ => response.status = 202) (fun e _ => e.Other) h := by
    unfold Routes.createJob
    rw [checkDeclaredLength_request hbody, if_neg hdeclared]
    refine (Fallible.wp_bind _ _ _).mpr ((Fallible.wp_pure _).mpr ?_)
    exact (Fallible.wp_bind _ _ _).mpr (Fallible.wp_mono (haccept h) (fun _ _ _ => rfl) fun _ _ h => h)
  refine (wp_bind _ _ _ _).mpr (Effects.wp_mono hcreate ?_)
  rintro (e | response) h' hr
  · refine Effects.wp_mono (wp_handleException_status e h') fun r _ hstatus => ?_
    rw [hstatus]
    exact hr
  · exact fun hstatus => absurd (Eq.trans (Eq.symm hr) hstatus) (by decide)

/-- **A request is answered with 413** if and only if its file is too large, or it says that its body
is by more than the margin; a file that is not too large is read as it is, and each round of the loop
that reads it holds a bounded number of bytes. -/
theorem size_checks_agree {config : Config} (hmax : 1 ≤ config.maxUploadBytes)
    (hpillow : ext.VerifyForeign) (hbody : req.bodyLength < 10 ^ 20) {r : Except Exc Response}
    {h : History}
    (hrun : Steps (recorded ext)
      (Routes.postJobs (.build config) ext req.contentLength req.file) [] (.ret r) h) :
    (responseStatus r = 413 ↔ req.TooLarge config.maxUploadBytes) ∧
    Routes.readLimited req.file config.maxUploadBytes =
      (if (req.size : Int) ≤ config.maxUploadBytes then pure req.data
        else Fallible.raise (Routes.tooLarge config.maxUploadBytes)) ∧
    ∀ b, Routes.Visits config.maxUploadBytes ⟨[], 0, req.file.reads⟩ b →
      Routes.readLimited req.file config.maxUploadBytes =
        Routes.readLoop config.maxUploadBytes b.chunks b.total b.reads ∧
      (b.held : Int) ≤ config.maxUploadBytes + chunkBytes := by
  have hnonneg : 0 ≤ config.maxUploadBytes := by omega
  have hlimit : 0 ≤ (JobService.build config).config.maxUploadBytes := hnonneg
  refine ⟨?_, readLimited_file hnonneg, fun b hb => ⟨hb.readLoop_eq, held_file hnonneg hb⟩⟩
  by_cases hlarge : req.TooLarge config.maxUploadBytes
  · rw [postJobs_tooLarge hlimit hbody hlarge] at hrun
    exact iff_of_true (hrun.returned (wp_handleException_status _ _)) hlarge
  · exact iff_of_false
      (hrun.returned (wp_postJobs_fits hpillow hlimit hbody hlarge [])) hlarge

end Status

namespace Surroundings

/-- A small file in one chunk, with `overhead` further bytes in the body. -/
def smallFile (overhead : Nat) : MultipartRequest where
  chunks := [dotGif]
  chunk_size := by
    intro c hc
    obtain rfl := List.mem_singleton.mp hc
    exact ⟨by decide, by decide⟩
  overhead := overhead
  declaresLength := true
  filename := some "dot.gif"
  contentType := some "image/gif"

/-- The answer to a small file in a large form. -/
def refused : Except Exc Response :=
  .ok ⟨413, Routes.errorBody "file exceeds the 10485760 byte limit" "payload_too_large"⟩

theorem steps_largeForm : Steps (recorded small)
    (Routes.postJobs (.build config) small (smallFile 11000000).contentLength (smallFile 11000000).file) []
      (.ret refused) [⟨.metric (.uploads "rejected_too_large"), .ok ()⟩] := by
  have hplay : Prog.play (Cloud.perform small)
      (Routes.postJobs (.build config) small (smallFile 11000000).contentLength (smallFile 11000000).file)
      Cloud.empty [{}] = some (.ret refused, Cloud.empty,
        [⟨.metric (.uploads "rejected_too_large"), .ok ()⟩]) := by
    rw [postJobs_tooLarge (by decide) (by decide) (.inr ⟨rfl, by decide⟩)]
    rfl
  exact Prog.play_steps Cloud.answers_of_perform hplay []

theorem size_checks_agree_largeForm :
    (responseStatus refused = 413 ↔ (smallFile 11000000).TooLarge config.maxUploadBytes) ∧
    Routes.readLimited (smallFile 11000000).file config.maxUploadBytes =
      (if ((smallFile 11000000).size : Int) ≤ config.maxUploadBytes then pure (smallFile 11000000).data
        else Fallible.raise (Routes.tooLarge config.maxUploadBytes)) ∧
    ∀ b, Routes.Visits config.maxUploadBytes ⟨[], 0, (smallFile 11000000).file.reads⟩ b →
      Routes.readLimited (smallFile 11000000).file config.maxUploadBytes =
        Routes.readLoop config.maxUploadBytes b.chunks b.total b.reads ∧
      (b.held : Int) ≤ config.maxUploadBytes + chunkBytes :=
  size_checks_agree (by decide) small_verifyForeign (by decide) steps_largeForm

/-- A small file is answered with 413 because of the fields around it. -/
theorem large_form_refused : ∃ h,
    Steps (recorded small)
      (Routes.postJobs (.build config) small (smallFile 11000000).contentLength
        (smallFile 11000000).file) [] (.ret refused) h ∧
      responseStatus refused = 413 ∧ ¬ ((smallFile 11000000).size : Int) > config.maxUploadBytes :=
  ⟨_, steps_largeForm, rfl, by decide⟩

end Surroundings

end PixelForge
