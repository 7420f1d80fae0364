import Mathlib.Data.List.Sort
import PixelForge.Formats.FlatJson
import PixelForge.Shared.Config
import PixelForge.Shared.Images

/-! # Reading the configuration (`load_config`)

Every helper of `load_config` reads one variable and either gives its value or raises a `ConfigError`;
each has one lemma that says which (`requireVar_ok_iff` and so on), and `loadConfig` is put together from
these. `Accepts` is the condition on the environment, variable by variable.
-/
set_option autoImplicit false

namespace PixelForge

/-- The built-in functions on strings that the Unicode tables of the interpreter decide: `int` takes the
decimal digits and the white space of every script, `upper` and `lower` are the case mappings, and `repr`
escapes what is not printable. Whatever the tables say, `int` raises nothing but `ValueError` and reads
numerals, and the two mappings are the usual ones on the defaults; nothing else is relied on. -/
structure Builtins where
  int : String → Except Exc Int
  upper : String → String
  lower : String → String
  repr : String → String
  int_error : ∀ {s e}, int s = .error e → ∃ text, e = .python .valueError text
  int_numeral : ∀ n : Nat, n < 10 ^ 18 → int (toString n) = .ok n
  upper_info : upper "INFO" = "INFO"
  lower_empty : lower "" = ""

/-- The mapping that is read. -/
abbrev Environment : Type := String → Option String

def configError (text : String) : Exc := .python (.other "ConfigError") text

/-! ## The helpers -/

def requiredVars : List String := ["AWS_REGION", "S3_BUCKET", "SQS_QUEUE_URL", "DYNAMODB_TABLE"]

def validLogLevels : List String := ["CRITICAL", "ERROR", "WARNING", "INFO", "DEBUG"]

def trueValues : List String := ["1", "true", "yes", "on"]

def falseValues : List String := ["0", "false", "no", "off", ""]

def maxThumbnailEdge : Int := 8192

/-- `value.strip()`. -/
def stripped (value : String) : String := String.ofList (strip value.toList)

section Helpers

variable (b : Builtins) (source : Environment)

/-- `_get`. -/
def getVar (name : String) : Option String :=
  match source name with
  | none => none
  | some value => if stripped value = "" then none else some (stripped value)

/-- `_require`. -/
def requireVar (name : String) : Except Exc String :=
  match getVar source name with
  | none => .error (configError s!"missing required environment variable: {name}")
  | some value => .ok value

/-- `_log_level`. -/
def logLevelVar : Except Exc String :=
  let raw := (getVar source "LOG_LEVEL").getD "INFO"
  let level := b.upper raw
  if level ∈ validLogLevels then .ok level
  else .error (configError ("LOG_LEVEL must be one of " ++
    s!"['CRITICAL', 'DEBUG', 'ERROR', 'INFO', 'WARNING'], got {b.repr raw}"))

/-- `_int`. -/
def intVar (name : String) (default minimum : Int) : Except Exc Int :=
  match getVar source name with
  | none => .ok default
  | some raw =>
    match b.int raw with
    | .error (.python .valueError _) =>
      .error (configError s!"{name} must be an integer, got {b.repr raw}")
    | .error e => .error e
    | .ok value =>
      if value < minimum then .error (configError s!"{name} must be >= {minimum}, got {value}")
      else .ok value

/-- `_bool`. -/
def boolVar (name : String) (default : Bool) : Except Exc Bool :=
  match source name with
  | none => .ok default
  | some raw =>
    let normalised := b.lower (stripped raw)
    if normalised ∈ trueValues then .ok true
    else if normalised ∈ falseValues then .ok false
    else .error (configError
      s!"{name} must be a boolean (true/false/1/0/yes/no/on/off), got {b.repr raw}")

/-- The loop of `_thumbnail_sizes`. `sizes` is a set. -/
def addSizes (raw : String) : List String → List Nat → Except Exc (List Nat)
  | [], sizes => .ok sizes
  | token :: tokens, sizes =>
    if stripped token = "" then addSizes raw tokens sizes
    else
      match b.int (stripped token) with
      | .error (.python .valueError _) => .error (configError
          s!"THUMBNAIL_SIZES must be a comma-separated list of integers, got {b.repr raw}")
      | .error e => .error e
      | .ok size =>
        if size ≤ 0 ∨ maxThumbnailEdge < size then .error (configError
          s!"THUMBNAIL_SIZES entries must be between 1 and {maxThumbnailEdge}, got {size}")
        else addSizes raw tokens (sizes.insert size.toNat)

/-- `raw.split(",")`. -/
def splitCommas (raw : String) : List String := (raw.toList.splitOn ',').map String.ofList

/-- `_thumbnail_sizes`. -/
def thumbnailSizesVar : Except Exc (List Nat) := do
  let raw := (getVar source "THUMBNAIL_SIZES").getD "150,400,800"
  let sizes ← addSizes b raw (splitCommas raw) []
  if sizes = [] then .error (configError "THUMBNAIL_SIZES must contain at least one size")
  else .ok (sizes.mergeSort (· ≤ ·))

/-- The required variables that are unset or blank. -/
def missingVars : List String := requiredVars.filter fun name => (getVar source name).isNone

def loadConfig : Except Exc Config :=
  if missingVars source ≠ [] then
    .error (configError ("missing required environment variable(s): " ++
      ", ".intercalate ((missingVars source).mergeSort (· ≤ ·))))
  else do
    let awsRegion ← requireVar source "AWS_REGION"
    let s3Bucket ← requireVar source "S3_BUCKET"
    let sqsQueueUrl ← requireVar source "SQS_QUEUE_URL"
    let dynamodbTable ← requireVar source "DYNAMODB_TABLE"
    let logLevel ← logLevelVar b source
    let shutdownGraceSeconds ← intVar b source "SHUTDOWN_GRACE_SECONDS" 30 0
    let maxUploadBytes ← intVar b source "MAX_UPLOAD_BYTES" 10485760 1
    let thumbnailSizes ← thumbnailSizesVar b source
    let enableChaosEndpoint ← boolVar b source "ENABLE_CHAOS_ENDPOINT" false
    pure { awsRegion, s3Bucket, sqsQueueUrl, dynamodbTable, logLevel, shutdownGraceSeconds,
           maxUploadBytes, thumbnailSizes, enableChaosEndpoint,
           otelExporterOtlpEndpoint := getVar source "OTEL_EXPORTER_OTLP_ENDPOINT",
           awsEndpointUrl := getVar source "AWS_ENDPOINT_URL" }

end Helpers

/-! ## What each helper gives -/

/-- Unset, or nothing but whitespace. -/
def Blank (source : Environment) (name : String) : Prop :=
  ∀ value, source name = some value → ∀ c ∈ value.toList, isPySpace c = true

/-- Raises nothing but `ConfigError`. -/
def ConfigOnly {α : Type} (m : Except Exc α) : Prop := ∀ e, m = .error e → ∃ text, e = configError text

/-- An integer variable, where it is set, parses and meets its minimum. -/
def IntAccepted (b : Builtins) (source : Environment) (name : String) (minimum : Int) : Prop :=
  ∀ raw, getVar source name = some raw → ∃ value, b.int raw = .ok value ∧ minimum ≤ value

/-- The tokens that are not blank, without their whitespace. -/
def kept (tokens : List String) : List String := (tokens.map stripped).filter (· ≠ "")

def sizeTokens (raw : String) : List String := kept (splitCommas raw)

/-- A token that parses to a size. -/
def IsSize (b : Builtins) (token : String) (size : Nat) : Prop :=
  b.int token = .ok size ∧ 1 ≤ size ∧ size ≤ 8192

/-- Every token is a size, and there is one. -/
structure SizesAccepted (b : Builtins) (raw : String) : Prop where
  each : ∀ token ∈ sizeTokens raw, ∃ size, IsSize b token size
  some : sizeTokens raw ≠ []

/-- The environments from which a configuration can be read. -/
structure Accepts (b : Builtins) (source : Environment) : Prop where
  required : ∀ name ∈ requiredVars, ¬ Blank source name
  logLevel : ∀ raw, getVar source "LOG_LEVEL" = some raw → b.upper raw ∈ validLogLevels
  grace : IntAccepted b source "SHUTDOWN_GRACE_SECONDS" 0
  uploadBytes : IntAccepted b source "MAX_UPLOAD_BYTES" 1
  sizes : ∀ raw, getVar source "THUMBNAIL_SIZES" = some raw → SizesAccepted b raw
  chaos : ∀ raw, getVar source "ENABLE_CHAOS_ENDPOINT" = some raw →
    b.lower raw ∈ trueValues ++ falseValues

/-- What `reads` takes from the variable or, where it is unset or blank, its default. -/
def ReadsAs {α : Type} (source : Environment) (name : String) (reads : String → α → Prop)
    (default value : α) : Prop :=
  (Blank source name ∧ value = default) ∨ ∃ raw, getVar source name = some raw ∧ reads raw value

/-- Strictly increasing, and what the tokens parse to. -/
def SizesOf (b : Builtins) (raw : String) (sizes : List Nat) : Prop :=
  sizes.Pairwise (· < ·) ∧ ∀ n : Nat, n ∈ sizes ↔ ∃ token ∈ sizeTokens raw, b.int token = .ok n

/-- Every field holds what its own variable says. -/
structure ReadFrom (b : Builtins) (source : Environment) (config : Config) : Prop where
  awsRegion : getVar source "AWS_REGION" = some config.awsRegion
  s3Bucket : getVar source "S3_BUCKET" = some config.s3Bucket
  sqsQueueUrl : getVar source "SQS_QUEUE_URL" = some config.sqsQueueUrl
  dynamodbTable : getVar source "DYNAMODB_TABLE" = some config.dynamodbTable
  logLevel : ReadsAs source "LOG_LEVEL" (fun raw level => level = b.upper raw) "INFO" config.logLevel
  shutdownGraceSeconds : ReadsAs source "SHUTDOWN_GRACE_SECONDS" (fun raw n => b.int raw = .ok n) 30
    config.shutdownGraceSeconds
  maxUploadBytes : ReadsAs source "MAX_UPLOAD_BYTES" (fun raw n => b.int raw = .ok n) 10485760
    config.maxUploadBytes
  thumbnailSizes : ReadsAs source "THUMBNAIL_SIZES" (SizesOf b) [150, 400, 800] config.thumbnailSizes
  enableChaosEndpoint : ReadsAs source "ENABLE_CHAOS_ENDPOINT"
    (fun raw flag => flag = true ↔ b.lower raw ∈ trueValues) false config.enableChaosEndpoint
  otelExporterOtlpEndpoint :
    config.otelExporterOtlpEndpoint = getVar source "OTEL_EXPORTER_OTLP_ENDPOINT"
  awsEndpointUrl : config.awsEndpointUrl = getVar source "AWS_ENDPOINT_URL"

section Results

variable {b : Builtins} {source : Environment} {name : String} {α β : Type}

theorem bind_eq_ok {m : Except Exc α} {f : α → Except Exc β} {r : β} :
    m >>= f = .ok r ↔ ∃ a, m = .ok a ∧ f a = .ok r := by
  cases m with
  | error e =>
    constructor
    · intro h
      cases h
    · rintro ⟨a, h, -⟩
      cases h
  | ok a =>
    constructor
    · exact fun h => ⟨a, rfl, h⟩
    · rintro ⟨a', h, h'⟩
      obtain rfl := Except.ok.inj h
      exact h'

theorem ConfigOnly.bind {m : Except Exc α} {f : α → Except Exc β} (hm : ConfigOnly m)
    (hf : ∀ a, ConfigOnly (f a)) : ConfigOnly (m >>= f) := by
  intro e h
  cases m with
  | error e' => exact hm e (congrArg _ (Except.error.inj h))
  | ok a => exact hf a e h

theorem ConfigOnly.ok (a : α) : ConfigOnly (.ok a : Except Exc α) := fun _ h => by cases h

theorem ConfigOnly.error (text : String) : ConfigOnly (.error (configError text) : Except Exc α) :=
  fun _ h => ⟨text, (Except.error.inj h).symm⟩

theorem stripped_eq_empty {value : String} :
    stripped value = "" ↔ ∀ c ∈ value.toList, isPySpace c = true := by
  rw [← strip_eq_nil_iff, stripped, ← String.toList_inj, String.toList_ofList]
  rfl

theorem getVar_eq_none : getVar source name = none ↔ Blank source name := by
  unfold getVar Blank
  cases source name with
  | none => simp
  | some value =>
    simp only [Option.some.injEq, forall_eq', ← stripped_eq_empty]
    split <;> simp_all

theorem getVar_of_not_blank (h : ¬ Blank source name) : ∃ value, getVar source name = some value :=
  Option.ne_none_iff_exists'.mp fun hnone => h (getVar_eq_none.mp hnone)

theorem requireVar_ok_iff {value : String} :
    requireVar source name = .ok value ↔ getVar source name = some value := by
  unfold requireVar
  split <;> simp_all

theorem requireVar_only : ConfigOnly (requireVar source name) := by
  unfold requireVar
  split
  · exact .error _
  · exact .ok _

theorem logLevelVar_ok_iff {level : String} : logLevelVar b source = .ok level ↔
    level = b.upper ((getVar source "LOG_LEVEL").getD "INFO") ∧ level ∈ validLogLevels := by
  unfold logLevelVar
  dsimp only
  split
  · rename_i h
    constructor
    · intro hok
      obtain rfl := Except.ok.inj hok
      exact ⟨rfl, h⟩
    · rintro ⟨rfl, -⟩
      rfl
  · rename_i h
    constructor
    · intro hok
      cases hok
    · rintro ⟨rfl, hmem⟩
      exact absurd hmem h

theorem logLevelVar_only : ConfigOnly (logLevelVar b source) := by
  unfold logLevelVar
  dsimp only
  split
  · exact .ok _
  · exact .error _

theorem intVar_ok_iff {default minimum value : Int} : intVar b source name default minimum = .ok value ↔
    (getVar source name = none ∧ value = default) ∨
      ∃ raw, getVar source name = some raw ∧ b.int raw = .ok value ∧ minimum ≤ value := by
  unfold intVar
  cases getVar source name with
  | none => simp [eq_comm]
  | some raw =>
    simp only [reduceCtorEq, false_and, Option.some.injEq, exists_eq_left', false_or]
    split
    · simp_all
    · simp_all
    · rename_i v hv
      rw [hv]
      split
      · rename_i hlt
        constructor
        · intro hok
          cases hok
        · rintro ⟨hok, hle⟩
          cases hok
          omega
      · rename_i hle
        constructor
        · intro hok
          cases hok
          exact ⟨rfl, by omega⟩
        · exact fun h => h.1

/-- A failed `int` is a `ValueError`, which is caught. -/
theorem intVar_only {default minimum : Int} : ConfigOnly (intVar b source name default minimum) := by
  unfold intVar
  split
  · exact .ok _
  · split
    · exact .error _
    · rename_i e hnot herror
      obtain ⟨text, rfl⟩ := b.int_error herror
      exact absurd rfl (hnot text)
    · split
      · exact .error _
      · exact .ok _

/-- Whether a value that is set spells a truth value is seen on the stripped text, and the empty text is
one of the spellings. -/
theorem boolVar_ok_iff (default : Bool) : (∃ flag, boolVar b source name default = .ok flag) ↔
    ∀ raw, getVar source name = some raw → b.lower raw ∈ trueValues ++ falseValues := by
  unfold boolVar getVar
  cases source name with
  | none => simp
  | some raw =>
    dsimp only
    have hspelled : (∃ flag, (if b.lower (stripped raw) ∈ trueValues then .ok true
        else if b.lower (stripped raw) ∈ falseValues then .ok false
        else .error (configError
          s!"{name} must be a boolean (true/false/1/0/yes/no/on/off), got {b.repr raw}") :
            Except Exc Bool) = .ok flag) ↔ b.lower (stripped raw) ∈ trueValues ++ falseValues := by
      rw [List.mem_append]
      split
      · simp_all
      · split <;> simp_all
    rw [hspelled]
    split
    · rename_i hblank
      rw [hblank, b.lower_empty]
      simp [falseValues]
    · simp

theorem boolVar_readsAs {default flag : Bool} (hdefault : default = false)
    (h : boolVar b source name default = .ok flag) :
    ReadsAs source name (fun raw flag => flag = true ↔ b.lower raw ∈ trueValues) default flag := by
  unfold boolVar at h
  unfold ReadsAs getVar Blank
  cases hvalue : source name with
  | none =>
    rw [hvalue] at h
    obtain rfl := Except.ok.inj h
    exact .inl ⟨nofun, rfl⟩
  | some raw =>
    rw [hvalue] at h
    dsimp only at h ⊢
    by_cases hblank : stripped raw = ""
    · rw [hblank, b.lower_empty, if_neg (by decide), if_pos (by decide)] at h
      obtain rfl := Except.ok.inj h
      refine .inl ⟨fun value hv => ?_, hdefault.symm⟩
      obtain rfl := Option.some.inj hv
      exact stripped_eq_empty.mp hblank
    · refine .inr ⟨stripped raw, if_neg hblank, ?_⟩
      split at h
      · rename_i htrue
        obtain rfl := Except.ok.inj h
        exact iff_of_true rfl htrue
      · rename_i hnot
        split at h
        · obtain rfl := Except.ok.inj h
          exact iff_of_false Bool.false_ne_true hnot
        · cases h

theorem boolVar_only {default : Bool} : ConfigOnly (boolVar b source name default) := by
  unfold boolVar
  split
  · exact .ok _
  · dsimp only
    split
    · exact .ok _
    · split
      · exact .ok _
      · exact .error _

/-! ## The sizes -/

section Sizes

variable {raw : String} {tokens : List String} {sizes out : List Nat}

theorem kept_cons_blank {token : String} (h : stripped token = "") (tokens : List String) :
    kept (token :: tokens) = kept tokens := by
  simp [kept, h]

theorem kept_cons {token : String} (h : stripped token ≠ "") (tokens : List String) :
    kept (token :: tokens) = stripped token :: kept tokens := by
  simp [kept, h]

theorem addSizes_only : ConfigOnly (addSizes b raw tokens sizes) := by
  induction tokens generalizing sizes with
  | nil => exact .ok _
  | cons token tokens ih =>
    unfold addSizes
    split
    · exact ih
    · split
      · exact .error _
      · rename_i e hnot herror
        obtain ⟨text, rfl⟩ := b.int_error herror
        exact absurd rfl (hnot text)
      · split
        · exact .error _
        · exact ih

theorem addSizes_cons_ok {token : String} (hne : stripped token ≠ "") :
    addSizes b raw (token :: tokens) sizes = .ok out ↔
      ∃ size, IsSize b (stripped token) size ∧ addSizes b raw tokens (sizes.insert size) = .ok out := by
  rw [addSizes, if_neg hne]
  cases hint : b.int (stripped token) with
  | error e =>
    obtain ⟨text, rfl⟩ := b.int_error hint
    constructor
    · intro h
      cases h
    · rintro ⟨size, ⟨hok, -⟩, -⟩
      rw [hint] at hok
      cases hok
  | ok size =>
    dsimp only
    split
    · rename_i hbad
      constructor
      · intro h
        cases h
      · rintro ⟨n, ⟨hok, hlow, hhigh⟩, -⟩
        rw [hint] at hok
        obtain rfl := Except.ok.inj hok
        simp only [maxThumbnailEdge] at hbad
        omega
    · rename_i hgood
      simp only [maxThumbnailEdge, not_or, not_le, not_lt] at hgood
      constructor
      · intro h
        refine ⟨size.toNat, ⟨?_, by omega, by omega⟩, h⟩
        rw [hint, Int.toNat_of_nonneg (by omega)]
      · rintro ⟨n, ⟨hok, -⟩, h⟩
        rw [hint] at hok
        obtain rfl := Except.ok.inj hok
        exact h

/-- **The loop** collects what the tokens parse to, once each. -/
theorem addSizes_ok (h : addSizes b raw tokens sizes = .ok out) :
    (∀ token ∈ kept tokens, ∃ size, IsSize b token size) ∧ (sizes.Nodup → out.Nodup) ∧
      ∀ n : Nat, n ∈ out ↔ n ∈ sizes ∨ ∃ token ∈ kept tokens, b.int token = .ok n := by
  induction tokens generalizing sizes with
  | nil =>
    obtain rfl := Except.ok.inj h
    simp [kept]
  | cons token tokens ih =>
    by_cases hblank : stripped token = ""
    · rw [addSizes, if_pos hblank] at h
      rw [kept_cons_blank hblank]
      exact ih h
    · obtain ⟨size, hsize, hrest⟩ := (addSizes_cons_ok hblank).mp h
      obtain ⟨heach, hnodup, hmem⟩ := ih hrest
      rw [kept_cons hblank]
      refine ⟨List.forall_mem_cons.mpr ⟨⟨size, hsize⟩, heach⟩, fun hs => hnodup (hs.insert), fun n => ?_⟩
      have hparse : b.int (stripped token) = .ok (n : Int) ↔ n = size := by
        rw [hsize.1, Except.ok.injEq, Nat.cast_inj, eq_comm]
      rw [hmem, List.mem_insert_iff, List.exists_mem_cons_iff, hparse, or_assoc, or_left_comm]

theorem addSizes_total (h : ∀ token ∈ kept tokens, ∃ size, IsSize b token size) :
    ∃ out, addSizes b raw tokens sizes = .ok out := by
  induction tokens generalizing sizes with
  | nil => exact ⟨sizes, rfl⟩
  | cons token tokens ih =>
    by_cases hblank : stripped token = ""
    · rw [kept_cons_blank hblank] at h
      rw [addSizes, if_pos hblank]
      exact ih h
    · rw [kept_cons hblank] at h
      obtain ⟨⟨size, hsize⟩, hrest⟩ := List.forall_mem_cons.mp h
      obtain ⟨out, hout⟩ := ih hrest
      exact ⟨out, (addSizes_cons_ok hblank).mpr ⟨size, hsize, hout⟩⟩

/-- `THUMBNAIL_SIZES`, or its default. -/
def sizesRaw (source : Environment) : String := (getVar source "THUMBNAIL_SIZES").getD "150,400,800"

theorem nil_iff_kept_nil (h : addSizes b raw tokens [] = .ok out) : out = [] ↔ kept tokens = [] := by
  obtain ⟨heach, -, hmem⟩ := addSizes_ok h
  constructor
  · intro hnil
    refine List.eq_nil_iff_forall_not_mem.mpr fun token htoken => ?_
    obtain ⟨size, hsize⟩ := heach token htoken
    have hin : size ∈ out := (hmem size).mpr (.inr ⟨token, htoken, hsize.1⟩)
    rw [hnil] at hin
    exact absurd hin List.not_mem_nil
  · intro hnil
    refine List.eq_nil_iff_forall_not_mem.mpr fun n hn => ?_
    obtain hn | ⟨token, htoken, -⟩ := (hmem n).mp hn
    · exact absurd hn List.not_mem_nil
    · rw [hnil] at htoken
      exact absurd htoken List.not_mem_nil

theorem thumbnailSizesVar_only : ConfigOnly (thumbnailSizesVar b source) := by
  refine addSizes_only.bind fun sizes => ?_
  split
  · exact .error _
  · exact .ok _

/-- **`_thumbnail_sizes`**: sorted, without duplicates, and what the tokens parse to. -/
theorem thumbnailSizesVar_ok (h : thumbnailSizesVar b source = .ok out) :
    SizesAccepted b (sizesRaw source) ∧ SizesOf b (sizesRaw source) out := by
  obtain ⟨sizes, hsizes, hrest⟩ := bind_eq_ok.mp h
  split at hrest
  · cases hrest
  · rename_i hne
    obtain rfl := Except.ok.inj hrest
    obtain ⟨heach, hnodup, hmem⟩ := addSizes_ok hsizes
    refine ⟨⟨heach, fun hnil => hne ((nil_iff_kept_nil hsizes).mpr hnil)⟩, ?_, fun n => ?_⟩
    · have hsorted : (sizes.mergeSort (· ≤ ·)).Pairwise (· ≤ ·) := List.pairwise_mergeSort' (· ≤ ·) sizes
      have hdistinct : (sizes.mergeSort (· ≤ ·)).Pairwise (· ≠ ·) :=
        (List.mergeSort_perm sizes _).nodup_iff.mpr (hnodup List.nodup_nil)
      exact (hsorted.and hdistinct).imp fun h => lt_of_le_of_ne h.1 h.2
    · rw [List.mem_mergeSort, hmem, or_iff_right List.not_mem_nil]
      rfl

theorem thumbnailSizesVar_total (h : SizesAccepted b (sizesRaw source)) :
    ∃ out, thumbnailSizesVar b source = .ok out := by
  obtain ⟨sizes, hsizes⟩ : ∃ out, addSizes b (sizesRaw source) _ [] = .ok out := addSizes_total h.each
  exact ⟨sizes.mergeSort (· ≤ ·), bind_eq_ok.mpr ⟨sizes, hsizes,
    if_neg fun hnil => h.some ((nil_iff_kept_nil hsizes).mp hnil)⟩⟩

theorem sizeTokens_default : sizeTokens "150,400,800" = ["150", "400", "800"] := by decide +kernel

theorem sizesOf_default (h : SizesOf b "150,400,800" out) : out = [150, 400, 800] := by
  obtain ⟨hsorted, hmem⟩ := h
  have hint : ∀ k n : Nat, k < 10 ^ 18 → (b.int (toString k) = .ok (n : Int) ↔ n = k) := by
    intro k n hk
    rw [b.int_numeral k hk, Except.ok.injEq, Nat.cast_inj, eq_comm]
  have hsame : ∀ n, n ∈ out ↔ n ∈ [150, 400, 800] := by
    intro n
    rw [hmem, sizeTokens_default]
    simp only [List.mem_cons, List.not_mem_nil, or_false, exists_eq_or_imp, exists_eq_left]
    exact or_congr (hint 150 n (by omega)) (or_congr (hint 400 n (by omega)) (hint 800 n (by omega)))
  have hperm : out.Perm [150, 400, 800] :=
    (List.perm_ext_iff_of_nodup (hsorted.imp ne_of_lt) (by decide)).mpr hsame
  exact List.Perm.eq_of_pairwise (fun a c _ _ hac hca => absurd hac (lt_asymm hca)) hsorted (by decide) hperm

theorem sizesAccepted_default : SizesAccepted b "150,400,800" := by
  constructor
  · rw [sizeTokens_default]
    simp only [List.forall_mem_cons, List.not_mem_nil, false_imp_iff, implies_true, and_true]
    have hint : ∀ n : Nat, 1 ≤ n → n ≤ 8192 → IsSize b (toString n) n := fun n hlow hhigh =>
      ⟨b.int_numeral n (by omega), hlow, hhigh⟩
    exact ⟨⟨150, hint 150 (by omega) (by omega)⟩, ⟨400, hint 400 (by omega) (by omega)⟩,
      ⟨800, hint 800 (by omega) (by omega)⟩⟩
  · rw [sizeTokens_default]
    exact List.cons_ne_nil _ _

end Sizes

/-! ## `load_config` -/

theorem missingVars_eq_nil : missingVars source = [] ↔ ∀ name ∈ requiredVars, ¬ Blank source name := by
  simp only [missingVars, List.filter_eq_nil_iff, Option.isNone_iff_eq_none, getVar_eq_none]

theorem mem_missingVars : name ∈ missingVars source ↔ name ∈ requiredVars ∧ Blank source name := by
  rw [missingVars, List.mem_filter, Option.isNone_iff_eq_none, getVar_eq_none]

theorem loadConfig_only : ConfigOnly (loadConfig b source) := by
  unfold loadConfig
  split
  · exact .error _
  · exact requireVar_only.bind fun _ => requireVar_only.bind fun _ => requireVar_only.bind fun _ =>
      requireVar_only.bind fun _ => logLevelVar_only.bind fun _ => intVar_only.bind fun _ =>
      intVar_only.bind fun _ => thumbnailSizesVar_only.bind fun _ => boolVar_only.bind fun _ => .ok _

theorem intAccepted_iff (default : Int) {minimum : Int} :
    (∃ value, intVar b source name default minimum = .ok value) ↔ IntAccepted b source name minimum := by
  simp only [intVar_ok_iff, IntAccepted]
  cases getVar source name with
  | none => simp
  | some raw => simp

theorem logLevelAccepted_iff : (∃ level, logLevelVar b source = .ok level) ↔
    ∀ raw, getVar source "LOG_LEVEL" = some raw → b.upper raw ∈ validLogLevels := by
  simp only [logLevelVar_ok_iff]
  cases getVar source "LOG_LEVEL" with
  | none => simp [b.upper_info, validLogLevels]
  | some raw => simp

theorem sizesAccepted_iff : (∃ out, thumbnailSizesVar b source = .ok out) ↔
    ∀ raw, getVar source "THUMBNAIL_SIZES" = some raw → SizesAccepted b raw := by
  have hraw : (∃ out, thumbnailSizesVar b source = .ok out) ↔ SizesAccepted b (sizesRaw source) :=
    ⟨fun ⟨_, h⟩ => (thumbnailSizesVar_ok h).1, thumbnailSizesVar_total⟩
  rw [hraw, sizesRaw]
  cases getVar source "THUMBNAIL_SIZES" with
  | none => simp [sizesAccepted_default]
  | some raw => simp

/-- What the helpers gave for a configuration. -/
theorem loadConfig_helpers {config : Config} (h : loadConfig b source = .ok config) :
    missingVars source = [] ∧ requireVar source "AWS_REGION" = .ok config.awsRegion ∧
    requireVar source "S3_BUCKET" = .ok config.s3Bucket ∧
    requireVar source "SQS_QUEUE_URL" = .ok config.sqsQueueUrl ∧
    requireVar source "DYNAMODB_TABLE" = .ok config.dynamodbTable ∧
    logLevelVar b source = .ok config.logLevel ∧
    intVar b source "SHUTDOWN_GRACE_SECONDS" 30 0 = .ok config.shutdownGraceSeconds ∧
    intVar b source "MAX_UPLOAD_BYTES" 10485760 1 = .ok config.maxUploadBytes ∧
    thumbnailSizesVar b source = .ok config.thumbnailSizes ∧
    boolVar b source "ENABLE_CHAOS_ENDPOINT" false = .ok config.enableChaosEndpoint ∧
    config.otelExporterOtlpEndpoint = getVar source "OTEL_EXPORTER_OTLP_ENDPOINT" ∧
    config.awsEndpointUrl = getVar source "AWS_ENDPOINT_URL" := by
  unfold loadConfig at h
  split at h
  · cases h
  · rename_i hmissing
    obtain ⟨region, hregion, h⟩ := bind_eq_ok.mp h
    obtain ⟨bucket, hbucket, h⟩ := bind_eq_ok.mp h
    obtain ⟨queue, hqueue, h⟩ := bind_eq_ok.mp h
    obtain ⟨table, htable, h⟩ := bind_eq_ok.mp h
    obtain ⟨level, hlevel, h⟩ := bind_eq_ok.mp h
    obtain ⟨grace, hgrace, h⟩ := bind_eq_ok.mp h
    obtain ⟨bytes, hbytes, h⟩ := bind_eq_ok.mp h
    obtain ⟨sizes, hsizes, h⟩ := bind_eq_ok.mp h
    obtain ⟨flag, hflag, h⟩ := bind_eq_ok.mp h
    obtain rfl := Except.ok.inj h
    exact ⟨not_not.mp hmissing, hregion, hbucket, hqueue, htable, hlevel, hgrace, hbytes, hsizes,
      hflag, rfl, rfl⟩

/-- **Each variable on its own** decides whether there is a configuration. -/
theorem loadConfig_ok_iff : (∃ config, loadConfig b source = .ok config) ↔ Accepts b source := by
  constructor
  · rintro ⟨config, h⟩
    obtain ⟨hmissing, -, -, -, -, hlevel, hgrace, hbytes, hsizes, hflag, -⟩ := loadConfig_helpers h
    exact ⟨missingVars_eq_nil.mp hmissing, logLevelAccepted_iff.mp ⟨_, hlevel⟩,
      (intAccepted_iff 30).mp ⟨_, hgrace⟩, (intAccepted_iff 10485760).mp ⟨_, hbytes⟩,
      sizesAccepted_iff.mp ⟨_, hsizes⟩, (boolVar_ok_iff false).mp ⟨_, hflag⟩⟩
  · intro h
    have hrequire : ∀ name ∈ requiredVars, ∃ value, requireVar source name = .ok value :=
      fun name hname => (getVar_of_not_blank (h.required name hname)).imp fun _ =>
        requireVar_ok_iff.mpr
    obtain ⟨region, hregion⟩ := hrequire "AWS_REGION" (by decide)
    obtain ⟨bucket, hbucket⟩ := hrequire "S3_BUCKET" (by decide)
    obtain ⟨queue, hqueue⟩ := hrequire "SQS_QUEUE_URL" (by decide)
    obtain ⟨table, htable⟩ := hrequire "DYNAMODB_TABLE" (by decide)
    obtain ⟨level, hlevel⟩ := logLevelAccepted_iff.mpr h.logLevel
    obtain ⟨grace, hgrace⟩ := (intAccepted_iff 30).mpr h.grace
    obtain ⟨bytes, hbytes⟩ := (intAccepted_iff 10485760).mpr h.uploadBytes
    obtain ⟨sizes, hsizes⟩ := sizesAccepted_iff.mpr h.sizes
    obtain ⟨flag, hflag⟩ := (boolVar_ok_iff false).mpr h.chaos
    have hmissing : ¬ missingVars source ≠ [] := not_not.mpr (missingVars_eq_nil.mpr h.required)
    rw [loadConfig, if_neg hmissing, hregion, hbucket, hqueue, htable, hlevel, hgrace, hbytes, hsizes,
      hflag]
    exact ⟨_, rfl⟩

theorem intVar_readsAs {default minimum value : Int}
    (h : intVar b source name default minimum = .ok value) :
    ReadsAs source name (fun raw n => b.int raw = .ok n) default value := by
  obtain ⟨hnone, hvalue⟩ | ⟨raw, hraw, hint, -⟩ := intVar_ok_iff.mp h
  · exact .inl ⟨getVar_eq_none.mp hnone, hvalue⟩
  · exact .inr ⟨raw, hraw, hint⟩

theorem logLevelVar_readsAs {level : String} (h : logLevelVar b source = .ok level) :
    ReadsAs source "LOG_LEVEL" (fun raw level => level = b.upper raw) "INFO" level := by
  have hlevel := (logLevelVar_ok_iff.mp h).1
  cases hraw : getVar source "LOG_LEVEL" with
  | none =>
    rw [hraw, Option.getD_none, b.upper_info] at hlevel
    exact .inl ⟨getVar_eq_none.mp hraw, hlevel⟩
  | some raw =>
    rw [hraw, Option.getD_some] at hlevel
    exact .inr ⟨raw, hraw, hlevel⟩

theorem thumbnailSizesVar_readsAs {sizes : List Nat} (h : thumbnailSizesVar b source = .ok sizes) :
    ReadsAs source "THUMBNAIL_SIZES" (SizesOf b) [150, 400, 800] sizes := by
  have hsizes := (thumbnailSizesVar_ok h).2
  unfold sizesRaw at hsizes
  cases hraw : getVar source "THUMBNAIL_SIZES" with
  | none =>
    rw [hraw, Option.getD_none] at hsizes
    exact .inl ⟨getVar_eq_none.mp hraw, sizesOf_default hsizes⟩
  | some raw =>
    rw [hraw, Option.getD_some] at hsizes
    exact .inr ⟨raw, hraw, hsizes⟩

theorem loadConfig_readFrom {config : Config} (h : loadConfig b source = .ok config) :
    ReadFrom b source config := by
  obtain ⟨-, hregion, hbucket, hqueue, htable, hlevel, hgrace, hbytes, hsizes, hflag, hotel, haws⟩ :=
    loadConfig_helpers h
  exact ⟨requireVar_ok_iff.mp hregion, requireVar_ok_iff.mp hbucket, requireVar_ok_iff.mp hqueue,
    requireVar_ok_iff.mp htable, logLevelVar_readsAs hlevel, intVar_readsAs hgrace, intVar_readsAs hbytes,
    thumbnailSizesVar_readsAs hsizes, boolVar_readsAs rfl hflag, hotel, haws⟩

/-- **Configuration parsing is exact.** -/
theorem loadConfig_exact (b : Builtins) (source : Environment) :
    (∀ e, loadConfig b source = .error e → ∃ text, e = configError text) ∧
    ((∃ config, loadConfig b source = .ok config) ↔ Accepts b source) ∧
    ((∃ name ∈ requiredVars, Blank source name) → ∃ names : List String,
      loadConfig b source = .error (configError
        ("missing required environment variable(s): " ++ ", ".intercalate names)) ∧
      names.Nodup ∧ ∀ name, name ∈ names ↔ name ∈ requiredVars ∧ Blank source name) ∧
    ∀ config, loadConfig b source = .ok config → ReadFrom b source config ∧
      config.thumbnailSizes.Pairwise (· < ·) ∧ ∀ n : Nat, n ∈ config.thumbnailSizes ↔
        ∃ token ∈ sizeTokens (sizesRaw source), b.int token = .ok n := by
  refine ⟨loadConfig_only, loadConfig_ok_iff, ?_, fun config h => ⟨loadConfig_readFrom h, ?_⟩⟩
  · rintro ⟨name, hname, hblank⟩
    have hmissing : missingVars source ≠ [] :=
      List.ne_nil_of_mem (mem_missingVars.mpr ⟨hname, hblank⟩)
    refine ⟨(missingVars source).mergeSort (· ≤ ·), if_pos hmissing, ?_, fun name' => ?_⟩
    · have hnodup : requiredVars.Nodup := by decide
      exact (List.mergeSort_perm _ _).nodup_iff.mpr (hnodup.filter _)
    · rw [List.mem_mergeSort, mem_missingVars]
  · obtain ⟨-, -, -, -, -, -, -, -, hsizes, -⟩ := loadConfig_helpers h
    exact (thumbnailSizesVar_ok hsizes).2

end Results

/-- The built-in functions on ASCII. -/
def asciiBuiltins : Builtins where
  int s :=
    match FlatJson.readNat s.toList with
    | some (n, []) => .ok n
    | _ => .error (.python .valueError "invalid literal for int() with base 10")
  upper := upperAscii
  lower s := String.ofList (s.toList.map Char.toLower)
  repr s := "'" ++ s ++ "'"
  int_error h := by
    split at h
    · cases h
    · exact ⟨_, (Except.error.inj h).symm⟩
  int_numeral n _ := by
    have hdigits : (toString n).toList = Nat.toDigits 10 n ++ [] := by
      rw [List.append_nil]
      exact String.toList_ofList
    have hstops : FlatJson.Stops [] := fun _ h => by cases h
    rw [hdigits, FlatJson.readNat_toDigits n hstops]
  upper_info := by decide
  lower_empty := by decide

example : (loadConfig asciiBuiltins fun name =>
    if name = "LOG_LEVEL" then some "debug" else if name ∈ requiredVars then some name else none).map
      (fun config => (config.awsRegion, config.logLevel, config.enableChaosEndpoint)) =
    .ok ("AWS_REGION", "DEBUG", false) := by
  rfl

end PixelForge
