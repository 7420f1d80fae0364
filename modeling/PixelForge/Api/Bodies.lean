import PixelForge.Api.Filenames
import PixelForge.Api.JobIds
import PixelForge.Effects.Replay
import PixelForge.Shared.Surroundings
import PixelForge.Shared.Timestamps

/-! # The bodies of the messages

What `create_job` sends is the message of a new record (`sends_new`), and all of it but the bucket and
the filename is ASCII. The JSON writer escapes the controls, so of the characters that SQS refuses only
U+FFFE and U+FFFF can come through, and `sanitise_filename` lets them.
-/
set_option autoImplicit false

namespace PixelForge
open Effects

/-! ## What is sent -/

section Sent

variable {ext : Externals} {config : Config} {u : Upload} {h : History}

/-- The extensions of an upload that passed the gate. -/
def extensions : List String := formatExtensions.map Prod.snd

/-- `r` is the record of an accepted upload, made from what the history shows. -/
def IsAccepted (ext : Externals) (u : Upload) (r : JobRecord) (h : History) : Prop :=
  ∃ probe jobId traceId createdAt updatedAt,
    r = JobService.newRecord ext u probe jobId traceId createdAt updatedAt ∧
      probe.extension ∈ extensions ∧ normaliseContentType ext u.contentType ∈ allowedContentTypes ∧
      drawOk jobId ∈ h ∧ (⟨.utcNow, .ok createdAt⟩ : Ev) ∈ h

theorem IsAccepted.cons {r : JobRecord} (hr : IsAccepted ext u r h) (v : Ev) :
    IsAccepted ext u r (v :: h) := by
  obtain ⟨probe, jobId, traceId, createdAt, updatedAt, hnew, hext, htype, hdrawn, hclock⟩ := hr
  exact ⟨probe, jobId, traceId, createdAt, updatedAt, hnew, hext, htype,
    List.mem_cons_of_mem _ hdrawn, List.mem_cons_of_mem _ hclock⟩

/-- Only the message of such a record may be sent. -/
abbrev sending (config : Config) (ext : Externals) (u : Upload) :
    Interface Request Request.Resp History :=
  recorder (fun h q => ∀ body attributes, q = .sendMessage body attributes →
    ∃ r, IsAccepted ext u r h ∧ body = ((JobService.build config).newMessage r).toJson ext)
    (Cloud.Answers ext)

theorem wp_sending {q : Request} (hq : q.isSend = false) {Q : q.Val → History → Prop}
    {X : Exc → History → Prop} (hok : ∀ v, Q v (⟨q, .ok v⟩ :: h))
    (herror : ∀ e, X e (⟨q, .error e⟩ :: h)) :
    Fallible.wp (sending config ext u) (ask q) Q X h := by
  refine (wp_ask q Q X h).mpr ⟨?_, ?_⟩
  · rintro body attributes rfl
    cases hq
  · rintro r h' ⟨-, rfl⟩
    cases r with
    | ok v => exact hok v
    | error e => exact herror e

theorem keeps_sending {r : JobRecord} {q : Request} (hq : q.isSend = false) :
    Fallible.Keeps (sending config ext u) (IsAccepted ext u r) (ask q) :=
  fun _ hr => wp_sending hq (fun _ => hr.cons _) fun _ => hr.cons _

theorem keeps_sending_retry {r : JobRecord} {q : Request} (hq : q.isSend = false)
    (policy : RetryPolicy) (operation : String) : Fallible.Keeps (sending config ext u)
      (IsAccepted ext u r) (callWithRetry policy operation noSwallow (ask q)) := by
  refine keeps_callWithRetry (keeps_sending hq) (fun q' hwait => keeps_sending ?_) policy operation _
  cases q' <;> first | rfl | cases hwait

theorem keeps_sending_enqueue (r : JobRecord) : Fallible.Keeps (sending config ext u)
    (IsAccepted ext u r) ((JobService.build config).enqueue ext u r) := by
  refine .bind (keeps_sending rfl) fun context => .tryElse ?_ (fun e => ?_) fun _ => ?_
  · refine .tryExcept (keeps_callWithRetry (fun h hr => ?_) (fun q hwait => keeps_sending ?_) _ _ _)
      fun e => .bind (keeps_sending rfl) fun _ => .raise e
    · refine (wp_ask _ _ _ h).mpr ⟨?_, ?_⟩
      · rintro body attributes hq
        obtain ⟨rfl, -⟩ := Request.sendMessage.inj hq
        exact ⟨r, hr, rfl⟩
      · rintro v h' ⟨-, rfl⟩
        cases v with
        | ok _ => exact hr.cons _
        | error _ => exact hr.cons _
    · cases q <;> first | rfl | cases hwait
  · refine .bind (.tryExcept (.bind (keeps_sending rfl) fun updatedAt =>
      .bind (keeps_sending rfl) fun completedAt => keeps_sending_retry (q := .putItem _) rfl _ _)
        fun _ => .pure _) ?_
    exact fun _ => .raise _
  · exact .bind (keeps_sending rfl) fun _ => .bind (keeps_sending rfl) fun _ => .pure _

theorem keeps_sending_submit (r : JobRecord) : Fallible.Keeps (sending config ext u)
    (IsAccepted ext u r) ((JobService.build config).submit ext u r) :=
  .bind (keeps_sending_retry (q := .putObject _ _ _ _) rfl _ _) fun _ =>
    .bind (keeps_sending_retry (q := .putItem _) rfl _ _) fun _ => keeps_sending_enqueue r

theorem wp_validateUpload {I : Interface Request Request.Resp History} (svc : JobService)
    (contentType : Option String) (sizeBytes : Nat) :
    Fallible.wp I (svc.validateUpload ext contentType sizeBytes)
      (fun _ h' => normaliseContentType ext contentType ∈ allowedContentTypes ∧ h' = h)
      (fun _ _ => True) h := by
  unfold JobService.validateUpload
  split
  · trivial
  · dsimp only
    split
    · rename_i hallowed
      exact ⟨List.contains_iff_mem.mp hallowed, rfl⟩
    · trivial

theorem extensionForFormat_mem {format : String} (h : extensionForFormat format ≠ ".bin") :
    extensionForFormat format ∈ extensions := by
  unfold extensionForFormat at h ⊢
  split
  · rename_i hempty
    exact absurd (if_pos hempty) h
  · rename_i hne
    rw [if_neg hne] at h
    cases hlookup : formatExtensions.lookup (upperAscii format) with
    | none => exact absurd (by rw [hlookup]; rfl) h
    | some e =>
      obtain ⟨l₁, l₂, hl, -⟩ := List.lookup_eq_some_iff.mp hlookup
      rw [Option.getD_some, extensions, hl]
      simp

theorem wp_probeUpload (data : Bytes) :
    Fallible.wp (sending config ext u) (JobService.probeUpload data)
      (fun probe _ => probe.extension ∈ extensions) (fun _ _ => True) h := by
  have hprobe : Fallible.wp (sending config ext u) (probeImage data)
      (fun probe _ => probe.extension ∈ extensions) (fun _ _ => True) h := by
    unfold probeImage
    split
    · trivial
    · refine (Fallible.wp_tryElse _ _ _ _).mpr (wp_sending rfl (fun header => ?_) fun _ => trivial)
      dsimp only
      split
      · trivial
      · rename_i hbin
        split
        · trivial
        · exact extensionForFormat_mem hbin
  exact (Fallible.wp_tryExcept _ _).mpr (Fallible.wp_mono hprobe (fun _ _ h => h)
    fun e _ _ => by cases e <;> trivial)

theorem createJob_sends : Fallible.wp (sending config ext u)
    ((JobService.build config).createJob ext u) (fun _ _ => True) (fun _ _ => True) [] := by
  refine (Fallible.wp_bind _ _ _).mpr (Fallible.wp_mono (wp_validateUpload _ _ _)
    (fun _ h₁ htype => ?_) fun _ _ h => h)
  refine (Fallible.wp_bind _ _ _).mpr (Fallible.wp_mono (wp_probeUpload _)
    (fun probe h₂ hext => ?_) fun _ _ h => h)
  refine (Fallible.wp_bind _ _ _).mpr (wp_sending rfl (fun jobId => ?_) fun _ => trivial)
  refine (Fallible.wp_bind _ _ _).mpr (wp_sending rfl (fun traceId => ?_) fun _ => trivial)
  refine (Fallible.wp_bind _ _ _).mpr (wp_sending rfl (fun createdAt => ?_) fun _ => trivial)
  refine (Fallible.wp_bind _ _ _).mpr (wp_sending rfl (fun updatedAt => ?_) fun _ => trivial)
  refine Fallible.wp_mono (keeps_sending_submit _ _ ?_) (fun _ _ _ => trivial) fun _ _ _ => trivial
  exact ⟨probe, jobId, traceId, createdAt, updatedAt, rfl, hext, htype.1, by simp, by simp⟩

/-- **What is sent is the message of a record made for the upload.** -/
theorem sends_new {p : Py JobRecord}
    (hrun : ServiceRun ext ((JobService.build config).createJob ext u) p h) {body : String}
    {attributes : List (String × String)} {ans : Request.Resp (.sendMessage body attributes)}
    (hsent : (⟨.sendMessage body attributes, ans⟩ : Ev) ∈ h) :
    ∃ r, IsAccepted ext u r h ∧ body = ((JobService.build config).newMessage r).toJson ext := by
  have hsteps : Steps (sending config ext u) ((JobService.build config).createJob ext u) [] p h :=
    hrun.restrict fun _ _ ha => ha
  obtain ⟨later, earlier, hh⟩ := List.append_of_mem hsent
  obtain ⟨r, hr, hbody⟩ := hsteps.permitted createJob_sends hh body attributes rfl
  have hsuffix : earlier ⊆ h := by
    rw [hh]
    exact fun v hv => List.mem_append_right _ (List.mem_cons_of_mem _ hv)
  obtain ⟨probe, jobId, traceId, createdAt, updatedAt, hnew, hext, htype, hdrawn, hclock⟩ := hr
  exact ⟨r, ⟨probe, jobId, traceId, createdAt, updatedAt, hnew, hext, htype, hsuffix hdrawn,
    hsuffix hclock⟩, hbody⟩

end Sent

/-! ## The characters of a body -/

/-- The characters that SQS accepts in a message body. -/
def sqsAccepts (c : Char) : Prop :=
  c.toNat = 0x9 ∨ c.toNat = 0xA ∨ c.toNat = 0xD ∨ (0x20 ≤ c.toNat ∧ c.toNat ≤ 0xD7FF) ∨
    (0xE000 ≤ c.toNat ∧ c.toNat ≤ 0xFFFD) ∨ (0x10000 ≤ c.toNat ∧ c.toNat ≤ 0x10FFFF)

instance (c : Char) : Decidable (sqsAccepts c) := inferInstanceAs (Decidable (_ ∨ _))

/-- U+FFFE and U+FFFF. -/
def isNoncharacter (c : Char) : Bool := c.toNat == 0xFFFE || c.toNat == 0xFFFF

/-- Past the controls SQS refuses only these two. -/
theorem sqsAccepts_iff {c : Char} (h : 32 ≤ c.toNat) : sqsAccepts c ↔ isNoncharacter c = false := by
  have hvalid : c.toNat < 0xD800 ∨ 0xDFFF < c.toNat ∧ c.toNat < 0x110000 := c.valid
  simp only [sqsAccepts, isNoncharacter, Bool.or_eq_false_iff, beq_eq_false_iff_ne]
  omega

/-- The members of the object that `model_dump_json` writes. -/
def JobMessage.members (m : JobMessage) : FlatJson.Members :=
  [("schema_version", .int m.schemaVersion), ("job_id", .str m.jobId), ("bucket", .str m.bucket),
    ("input_key", .str m.inputKey), ("content_type", .str m.contentType),
    ("filename", .str m.filename), ("submitted_at", .str m.submittedAt)]

section Characters

/-- No U+FFFE and no U+FFFF. -/
def Sendable (s : String) : Prop := ∀ c ∈ s.toList, isNoncharacter c = false

theorem sendable_of_ascii {s : String} (h : ∀ c ∈ s.toList, c.toNat < 128) : Sendable s := by
  intro c hc
  have hlt := h c hc
  simp only [isNoncharacter, Bool.or_eq_false_iff, beq_eq_false_iff_ne]
  omega

theorem sendable_of_all {s : String} (h : (s.toList.all fun c => decide (c.toNat < 128)) = true) :
    Sendable s :=
  sendable_of_ascii fun c hc => of_decide_eq_true (List.all_eq_true.mp h c hc)

theorem Sendable.append {s t : String} (hs : Sendable s) (ht : Sendable t) : Sendable (s ++ t) := by
  intro c hc
  rw [String.toList_append, List.mem_append] at hc
  exact hc.elim (hs c) (ht c)

/-- **A written object is accepted when its strings are sendable.** -/
theorem accepted_write_iff (kvs : FlatJson.Members) :
    (∀ c ∈ (FlatJson.write kvs).toList, sqsAccepts c) ↔
      ∀ kv ∈ kvs, ∀ c ∈ kv.1.toList ++ kv.2.chars, isNoncharacter c = false := by
  rw [FlatJson.forall_write fun c hlow hhigh => (sqsAccepts_iff hlow).mpr (by
    simp only [isNoncharacter, Bool.or_eq_false_iff, beq_eq_false_iff_ne]; omega)]
  refine forall₂_congr fun kv _ => forall₂_congr fun c _ => ?_
  constructor
  · intro h
    rcases Nat.lt_or_ge c.toNat 128 with hlt | hge
    · simp only [isNoncharacter, Bool.or_eq_false_iff, beq_eq_false_iff_ne]
      omega
    · exact (sqsAccepts_iff (by omega)).mp (h hge)
  · intro h hge
    exact (sqsAccepts_iff (by omega)).mpr h

theorem sendable_jobId {j : String} (h : isUuid j = true) : Sendable j := by
  refine sendable_of_ascii fun c hc => ?_
  obtain ⟨i, hi, rfl⟩ := List.getElem_of_mem hc
  have hchar := (form_of_isUuid h).chars i hi
  split at hchar
  · rw [hchar]
    decide
  · exact isHexDigit_ascii hchar

theorem sendable_of_accepted {m : JobMessage}
    (h : ∀ c ∈ (FlatJson.write m.members).toList, sqsAccepts c) :
    Sendable m.bucket ∧ Sendable m.filename := by
  have hvalue : ∀ (k s : String), (k, FlatJson.Scalar.str s) ∈ m.members → Sendable s :=
    fun k s hkv c hc => (accepted_write_iff _).mp h _ hkv c (List.mem_append_right _ hc)
  exact ⟨hvalue "bucket" _ (by simp [JobMessage.members]),
    hvalue "filename" _ (by simp [JobMessage.members])⟩

/-- What a body is made of, apart from the bucket and the filename, is sendable. -/
theorem accepted_members_iff {m : JobMessage} (hjob : Sendable m.jobId) (hkey : Sendable m.inputKey)
    (htype : Sendable m.contentType) (hclock : Sendable m.submittedAt) :
    (∀ c ∈ (FlatJson.write m.members).toList, sqsAccepts c) ↔
      Sendable m.bucket ∧ Sendable m.filename := by
  have hnames : ∀ kv ∈ m.members, Sendable kv.1 := by
    have hall : ∀ k ∈ m.members.map Prod.fst,
        (k.toList.all fun c => decide (c.toNat < 128)) = true := by
      show ∀ k ∈ ["schema_version", "job_id", "bucket", "input_key", "content_type", "filename",
        "submitted_at"], (k.toList.all fun c => decide (c.toNat < 128)) = true
      decide
    exact fun kv hkv => sendable_of_all (hall kv.1 (List.mem_map_of_mem hkv))
  refine ⟨sendable_of_accepted, fun ⟨hbucket, hfilename⟩ => ?_⟩
  rw [accepted_write_iff]
  intro kv hkv c hc
  rcases List.mem_append.mp hc with hname | hvalue
  · exact hnames kv hkv c hname
  · simp only [JobMessage.members, List.mem_cons, List.not_mem_nil, or_false] at hkv
    rcases hkv with rfl | rfl | rfl | rfl | rfl | rfl | rfl
    · exact absurd hvalue List.not_mem_nil
    · exact hjob c hvalue
    · exact hbucket c hvalue
    · exact hkey c hvalue
    · exact htype c hvalue
    · exact hfilename c hvalue
    · exact hclock c hvalue

end Characters

/-! ## What is kept of a filename -/

section Kept

variable {cs p q a b : List Char} {x : Char}

/-- What `sanitise_filename` keeps of the characters before one that it keeps. -/
def keptBefore (p : List Char) : List Char :=
  removeDoubleDots ((p.filter fun c => !isUnsafeFilenameChar c).dropWhile isPySpace)

/-- The filename has one of the two characters where fewer than 255 are kept before it. -/
def CarriesNoncharacter (filename : Option String) : Prop :=
  ∃ s, filename = some s ∧ ∃ p x q, s.toList = p ++ x :: q ∧ isNoncharacter x = true ∧
    (keptBefore p).length < 255

theorem plain_of_noncharacter (h : isNoncharacter x = true) :
    isUnsafeFilenameChar x = false ∧ isPySpace x = false ∧ x ≠ '.' := by
  have hx : x = Char.ofNat 0xFFFE ∨ x = Char.ofNat 0xFFFF := by
    rcases Bool.or_eq_true_iff.mp h with h | h
    · exact .inl (by rw [← eq_of_beq h, Char.ofNat_toNat])
    · exact .inr (by rw [← eq_of_beq h, Char.ofNat_toNat])
  rcases hx with rfl | rfl <;> decide

theorem dropWhile_append_cons {s : Char → Bool} (hx : s x = false) (a b : List Char) :
    (a ++ x :: b).dropWhile s = a.dropWhile s ++ x :: b := by
  induction a with
  | nil => rw [List.nil_append, List.dropWhile_cons_of_neg (by simp [hx])]; rfl
  | cons c a ih =>
    rw [List.cons_append, List.dropWhile_cons, List.dropWhile_cons, ih]
    split <;> rfl

theorem strip_around (hx : isPySpace x = false) (a b : List Char) :
    strip (a ++ x :: b) = a.dropWhile isPySpace ++ x :: b.rdropWhile isPySpace := by
  rw [strip, dropWhile_append_cons hx, List.rdropWhile, List.reverse_append, List.reverse_cons,
    List.append_assoc, List.singleton_append, dropWhile_append_cons hx, List.reverse_append,
    List.reverse_cons, List.reverse_reverse, List.append_assoc]
  rfl

theorem survivors_around (hx : isNoncharacter x = true) (p q : List Char) :
    survivors (p ++ x :: q) = (keptBefore p ++ x :: removeDoubleDots
      ((q.filter fun c => !isUnsafeFilenameChar c).rdropWhile isPySpace)).take 255 := by
  obtain ⟨hsafe, hspace, hdot⟩ := plain_of_noncharacter hx
  rw [survivors, List.filter_append, List.filter_cons_of_pos (by simp [hsafe]), strip_around hspace,
    removeDoubleDots_append hdot]
  rfl

/-- A character at its place in a filtered list, traced back. -/
theorem filter_split {s : Char → Bool} (h : cs.filter s = a ++ x :: b) :
    ∃ p q, cs = p ++ x :: q ∧ p.filter s = a := by
  obtain ⟨l₁, l₂, rfl, hl₁, hl₂⟩ := List.filter_eq_append_iff.mp h
  obtain ⟨l₃, l₄, rfl, hnone, -, -⟩ := List.filter_eq_cons_iff.mp hl₂
  refine ⟨l₁ ++ l₃, l₄, by simp, ?_⟩
  rw [List.filter_append, hl₁, List.filter_eq_nil_iff.mpr hnone, List.append_nil]

/-- A character at its place in a stripped list, traced back. -/
theorem strip_split (h : strip cs = a ++ x :: b) :
    ∃ p q, cs = p ++ x :: q ∧ p.dropWhile isPySpace = a := by
  obtain ⟨trail, htrail⟩ := List.rdropWhile_prefix isPySpace (cs.dropWhile isPySpace)
  have hsplit := List.takeWhile_append_dropWhile (p := isPySpace) (l := cs)
  rw [← htrail, ← strip, h] at hsplit
  refine ⟨cs.takeWhile isPySpace ++ a, b ++ trail, hsplit.symm.trans (by simp), ?_⟩
  have hlead : ∀ c ∈ cs.takeWhile isPySpace, isPySpace c = true := fun c => List.mem_takeWhile_imp
  rw [List.dropWhile_append_of_pos hlead]
  have hhead := (trimmed_strip cs).head
  rw [h] at hhead
  cases a with
  | nil => rfl
  | cons c a => exact List.dropWhile_cons_of_neg (Bool.eq_false_iff.mp (hhead c rfl))

theorem carried_iff : (∃ x ∈ survivors cs, isNoncharacter x = true) ↔
    ∃ p x q, cs = p ++ x :: q ∧ isNoncharacter x = true ∧ (keptBefore p).length < 255 := by
  constructor
  · rintro ⟨x, hmem, hx⟩
    obtain ⟨-, -, hdot⟩ := plain_of_noncharacter hx
    obtain ⟨a, b, hab⟩ := List.append_of_mem hmem
    have hlen : a.length < 255 := by
      have hlength := congrArg List.length hab
      rw [survivors, List.length_take, List.length_append, List.length_cons] at hlength
      omega
    have hsplit := List.take_append_drop 255
      (removeDoubleDots (strip (cs.filter fun c => !isUnsafeFilenameChar c)))
    rw [← survivors, hab, List.append_assoc, List.cons_append] at hsplit
    obtain ⟨p₁, q₁, hstrip, hp₁, -⟩ := removeDoubleDots_split hsplit.symm hdot
    obtain ⟨p₂, q₂, hfilter, hp₂⟩ := strip_split hstrip
    obtain ⟨p, q, hcs, hp⟩ := filter_split hfilter
    refine ⟨p, x, q, hcs, hx, ?_⟩
    rw [keptBefore, hp, hp₂, hp₁]
    exact hlen
  · rintro ⟨p, x, q, rfl, hx, hlen⟩
    refine ⟨x, ?_, hx⟩
    rw [survivors_around hx, List.take_append, List.take_of_length_le (by omega), List.mem_append]
    refine .inr ?_
    obtain ⟨k, hk⟩ := Nat.exists_eq_add_of_lt hlen
    rw [show 255 - (keptBefore p).length = k + 1 by omega, List.take_succ_cons]
    exact List.mem_cons_self

/-- **A sanitised filename is sendable exactly when it carries neither character.** -/
theorem sendable_sanitised_iff (filename : Option String) :
    Sendable (sanitiseFilename filename) ↔ ¬ CarriesNoncharacter filename := by
  have hupload : Sendable "upload" := sendable_of_all (by decide)
  cases filename with
  | none =>
    refine iff_of_true hupload ?_
    rintro ⟨s, hs, -⟩
    cases hs
  | some s =>
    have hcarries : CarriesNoncharacter (some s) ↔ ∃ x ∈ survivors s.toList, isNoncharacter x = true := by
      rw [carried_iff]
      constructor
      · rintro ⟨t, ht, h⟩
        rw [Option.some.inj ht]
        exact h
      · exact fun h => ⟨s, rfl, h⟩
    rw [hcarries, sanitiseFilename_some]
    split
    · rename_i hnil
      rw [hnil]
      exact iff_of_true hupload (by simp)
    · rw [Sendable, String.toList_ofList]
      simp

end Kept

/-! ## The bodies of an upload -/

/-- **Every character of a body is accepted exactly when neither the bucket's name nor what is kept of
the filename has a U+FFFE or U+FFFF.** -/
theorem body_accepted_iff {ext : Externals} {config : Config} {u : Upload} {p : Py JobRecord}
    {h : History} (hjson : ∀ m : JobMessage, ext.dumpJson m.dump = FlatJson.write m.members)
    (hclock : ∀ s, (⟨.utcNow, .ok s⟩ : Ev) ∈ h → ∃ d, toIso d = .ok s)
    (hrun : ServiceRun ext ((JobService.build config).createJob ext u) p h) {body : String}
    {attributes : List (String × String)} {ans : Request.Resp (.sendMessage body attributes)}
    (hsent : (⟨.sendMessage body attributes, ans⟩ : Ev) ∈ h) :
    (∀ c ∈ body.toList, sqsAccepts c) ↔
      (∀ c ∈ config.s3Bucket.toList, isNoncharacter c = false) ∧ ¬ CarriesNoncharacter u.filename := by
  obtain ⟨r, ⟨probe, jobId, traceId, createdAt, updatedAt, rfl, hext, htype, hdrawn, hcreated⟩, rfl⟩ :=
    sends_new hrun hsent
  have hanswers : Cloud.Answers ext .uuid4 (.ok jobId) :=
    hrun.answered (List.forall_mem_nil _) _ hdrawn
  have hjob : Sendable jobId := sendable_jobId (isUuid_of_answers hanswers)
  obtain ⟨d, hd⟩ := hclock createdAt hcreated
  have htypes : ∀ t ∈ allowedContentTypes, (t.toList.all fun c => decide (c.toNat < 128)) = true := by
    decide
  have hexts : ∀ e ∈ extensions, (e.toList.all fun c => decide (c.toNat < 128)) = true := by decide
  have hkey : Sendable (JobService.inputKey jobId probe.extension) :=
    (((sendable_of_all (by decide)).append hjob).append (sendable_of_all (by decide))).append
      (sendable_of_all (hexts _ hext))
  have hwrite := accepted_members_iff (m := (JobService.build config).newMessage
    (JobService.newRecord ext u probe jobId traceId createdAt updatedAt)) hjob hkey
    (sendable_of_all (htypes _ htype)) (sendable_of_ascii (toIso_ascii hd))
  rw [JobMessage.toJson, hjson]
  exact hwrite.trans (and_congr_right fun _ => sendable_sanitised_iff u.filename)

namespace Surroundings

/-- The answers of an upload that is accepted. -/
def accepting : List Choice :=
  [{}, { text := jobId }, {}, { text := clock }, { text := clock }, {}, {}, {}, { text := messageId }]

def isSend (v : Ev) : Bool :=
  match v with
  | ⟨.sendMessage _ _, _⟩ => true
  | _ => false

/-- Whether the clock, if this is its answer, shows `clock`. -/
def onClock (v : Ev) : Bool :=
  match v with
  | ⟨.utcNow, .ok s⟩ => BEq.beq (α := String) s clock
  | _ => true

theorem exists_of_isSend {h : History} (hsent : h.any isSend = true) :
    ∃ body attributes ans, (⟨.sendMessage body attributes, ans⟩ : Ev) ∈ h := by
  obtain ⟨⟨q, ans⟩, hmem, hsend⟩ := List.any_eq_true.mp hsent
  cases q with
  | sendMessage body attributes => exact ⟨body, attributes, ans, hmem⟩
  | _ => cases hsend

theorem toIso_clock : ∃ d, toIso d = .ok clock := by
  let d : DateTime :=
    { year := 2026, month := 1, day := 5, hour := 10, minute := 30, second := 0, microsecond := 0,
      utcoffset := none, date := ⟨by decide, by decide, by decide, by decide, by decide⟩,
      year_le := by decide, hour_lt := by decide, minute_lt := by decide, second_lt := by decide,
      microsecond_lt := by decide, offset_lt := by decide }
  have hd : (match toIso d with | .ok s => s == clock | .error _ => false) = true := by
    decide +kernel
  refine ⟨d, ?_⟩
  split at hd
  · rename_i s hs
    rw [hs, eq_of_beq hd]
  · cases hd

/-- The message for `goodUpload` is accepted. -/
theorem body_accepted_iff_good : ∃ p h body attributes,
    ∃ ans : Request.Resp (.sendMessage body attributes),
      ServiceRun small ((JobService.build config).createJob small goodUpload) p h ∧
        (⟨.sendMessage body attributes, ans⟩ : Ev) ∈ h ∧ ∀ c ∈ body.toList, sqsAccepts c := by
  have hruns : (Prog.play (Cloud.perform small) ((JobService.build config).createJob small goodUpload)
      Cloud.empty accepting).any
        (fun run => run.2.2.any isSend && run.2.2.all onClock) = true := by
    rfl
  obtain ⟨⟨p, s', h⟩, hplay, hrun⟩ := (Option.any_eq_true _ _).mp hruns
  obtain ⟨hsent, hclocks⟩ := Bool.and_eq_true_iff.mp hrun
  obtain ⟨body, attributes, ans, hmem⟩ := exists_of_isSend hsent
  have hsteps := Prog.play_steps Cloud.answers_of_perform hplay []
  rw [List.append_nil] at hsteps
  have hclock : ∀ s, (⟨.utcNow, .ok s⟩ : Ev) ∈ h → ∃ d, toIso d = .ok s := by
    intro s hs
    have hon : s = clock := eq_of_beq (α := String) (List.all_eq_true.mp hclocks _ hs)
    rw [hon]
    exact toIso_clock
  refine ⟨p, h, body, attributes, ans, hsteps, hmem,
    (body_accepted_iff (fun _ => rfl) hclock hsteps hmem).mpr ⟨sendable_of_all (by decide), ?_⟩⟩
  rw [← sendable_sanitised_iff]
  exact sendable_of_all (by rfl)

/-- A U+FFFE in the filename of an accepted upload is in the body that is sent. -/
theorem refused_body : ∃ p h body attributes,
    ∃ ans : Request.Resp (.sendMessage body attributes),
      ServiceRun small ((JobService.build config).createJob small
          { goodUpload with filename := some "\uFFFE.gif" }) p h ∧
        (⟨.sendMessage body attributes, ans⟩ : Ev) ∈ h ∧ ¬ ∀ c ∈ body.toList, sqsAccepts c := by
  have hruns : (Prog.play (Cloud.perform small) ((JobService.build config).createJob small
      { goodUpload with filename := some "\uFFFE.gif" }) Cloud.empty accepting).any
        (fun run => run.2.2.any isSend) = true := by
    rfl
  obtain ⟨⟨p, s', h⟩, hplay, hrun⟩ := (Option.any_eq_true _ _).mp hruns
  obtain ⟨body, attributes, ans, hmem⟩ := exists_of_isSend hrun
  have hsteps := Prog.play_steps Cloud.answers_of_perform hplay []
  rw [List.append_nil] at hsteps
  refine ⟨p, h, body, attributes, ans, hsteps, hmem, fun hall => ?_⟩
  obtain ⟨r, ⟨probe, jobId, traceId, createdAt, updatedAt, rfl, -⟩, rfl⟩ := sends_new hsteps hmem
  have hname : Sendable (sanitiseFilename (some "\uFFFE.gif")) := (sendable_of_accepted hall).2
  have hkept : '\uFFFE' ∈ (sanitiseFilename (some "\uFFFE.gif")).toList := by decide +kernel
  exact absurd (hname _ hkept) (by decide)

end Surroundings

end PixelForge
