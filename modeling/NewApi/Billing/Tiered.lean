import NewApi.Billing.Prices

/-!
# The token counts of a billing expression

A model may be priced by an expression over token counts. `BuildTieredTokenParams` makes the counts from the usage
that the upstream reports: OpenAI's prompt tokens are a total, from which the categories that the expression prices by
themselves are subtracted; Claude's are the text only. The contract of the expressions is that they need not know
which of the two they get. It is met as long as the expression prices the cache tokens that there are, and Claude
reports every cache write as a five-minute one (`upstream_agnostic_iff`).
-/

namespace NewApi

namespace Billing

/-- The usage, with what only an expression can price. -/
structure TieredUsage extends Usage where
  completionImageTokens : Int := 0

/-- `TokenParams`: the variables of an expression. -/
structure TokenParams where
  p : Int
  c : Int
  len : Int
  cr : Int
  cc : Int
  cc1h : Int
  img : Int
  imgO : Int
  ai : Int
  ao : Int
deriving DecidableEq

/-- What is subtracted from a base count when the expression uses the variable. -/
def subtractUsed (usedVars : String → Bool) (base : Int) (name : String) (tokens : Int) : Int :=
  if usedVars name then float64 (base - tokens) else base

/-- `BuildTieredTokenParams`. -/
def buildTieredTokenParams (usage : TieredUsage) (isClaudeUsageSemantic : Bool) (usedVars : String → Bool) :
    TokenParams :=
  let p := float64 usage.promptTokens
  let c := float64 usage.completionTokens
  let cr := float64 usage.cachedTokens
  let anthropic := usage.usageSemantic = "anthropic"
  let cc5m := if anthropic then float64 usage.claudeCacheCreation5mTokens else float64 usage.cachedCreationTokens
  let cc1h := if anthropic then float64 usage.claudeCacheCreation1hTokens else 0
  let img := float64 usage.imageTokens
  let ai := float64 usage.promptAudioTokens
  let imgO := float64 usage.completionImageTokens
  let ao := float64 usage.completionAudioTokens
  let inputLen := if isClaudeUsageSemantic then float64 (float64 (float64 (p + cr) + cc5m) + cc1h) else p
  let (p, c) :=
    if isClaudeUsageSemantic then (p, c)
    else
      let p := subtractUsed usedVars p "cr" cr
      let p := subtractUsed usedVars p "cc" cc5m
      let p := subtractUsed usedVars p "cc1h" cc1h
      let p := subtractUsed usedVars p "img" img
      let p := subtractUsed usedVars p "ai" ai
      let c := subtractUsed usedVars c "img_o" imgO
      let c := subtractUsed usedVars c "ao" ao
      (p, c)
  let p := if p < 0 then 0 else p
  let c := if c < 0 then 0 else c
  { p, c, len := inputLen, cr, cc := cc5m, cc1h, img, imgO, ai, ao }

/-- The value of a variable. -/
def TokenParams.value (t : TokenParams) : String → Option Int
  | "p" => some t.p
  | "c" => some t.c
  | "len" => some t.len
  | "cr" => some t.cr
  | "cc" => some t.cc
  | "cc1h" => some t.cc1h
  | "img" => some t.img
  | "img_o" => some t.imgO
  | "ai" => some t.ai
  | "ao" => some t.ao
  | _ => none

/-! ## One usage, reported in two ways -/

/-- The tokens that a request takes: its text, what is read from the cache, what is written to it for five minutes
and for an hour, and the answer. -/
structure PhysicalUsage where
  text : Nat
  cacheRead : Nat
  cacheWrite5m : Nat
  cacheWrite1h : Nat
  output : Nat

namespace PhysicalUsage

def cacheWrite (u : PhysicalUsage) : Nat := u.cacheWrite5m + u.cacheWrite1h

def prompt (u : PhysicalUsage) : Nat := u.text + u.cacheRead + u.cacheWrite

/-- As OpenAI reports it. -/
def openAI (u : PhysicalUsage) : TieredUsage :=
  { promptTokens := u.prompt, completionTokens := u.output, totalTokens := u.prompt + u.output,
    cachedTokens := u.cacheRead, cachedCreationTokens := u.cacheWrite }

/-- As Claude reports it: the cache writes in one sum, or told apart as well. -/
def claude (split : Bool) (u : PhysicalUsage) : TieredUsage :=
  { promptTokens := u.text, completionTokens := u.output, totalTokens := u.text + u.output,
    cachedTokens := u.cacheRead, cachedCreationTokens := u.cacheWrite,
    claudeCacheCreation5mTokens := if split then u.cacheWrite5m else 0,
    claudeCacheCreation1hTokens := if split then u.cacheWrite1h else 0, usageSemantic := "anthropic" }

end PhysicalUsage

/-- The two are the same for an expression that uses these variables. -/
def SameFor (usedVars : String → Bool) (a b : TokenParams) : Prop :=
  a.p = b.p ∧ a.c = b.c ∧ a.len = b.len ∧ ∀ name, usedVars name = true → a.value name = b.value name

/-- Every prompt token is counted once, in the base count or in a variable of its own. -/
def CountsOnce (usedVars : String → Bool) (u : PhysicalUsage) (t : TokenParams) : Prop :=
  t.p + (if usedVars "cr" then t.cr else 0) + (if usedVars "cc" then t.cc else 0) +
    (if usedVars "cc1h" then t.cc1h else 0) + (if usedVars "img" then t.img else 0) +
    (if usedVars "ai" then t.ai else 0) = u.prompt

/-- The counts are held exactly. -/
def PhysicalUsage.Exact (u : PhysicalUsage) : Prop := u.prompt ≤ 2 ^ 53 ∧ u.output ≤ 2 ^ 53

instance (u : PhysicalUsage) : Decidable u.Exact := inferInstanceAs (Decidable (_ ∧ _))

section
variable {usedVars : String → Bool} {u : PhysicalUsage} {split : Bool}

theorem subtractUsed_of_le {base tokens : Int} {name : String} (hlo : tokens ≤ base) (hpos : 0 ≤ tokens)
    (hhi : base ≤ 2 ^ 53) :
    subtractUsed usedVars base name tokens = base - (if usedVars name then tokens else 0) := by
  unfold subtractUsed
  split
  · exact float64_of_le (by omega) (by omega)
  · omega

theorem subtractUsed_zero {base : Int} {name : String} (hlo : 0 ≤ base) (hhi : base ≤ 2 ^ 53) :
    subtractUsed usedVars base name 0 = base := by
  rw [subtractUsed_of_le hlo (Int.le_refl 0) hhi, ite_self, Int.sub_zero]

/-- The counts for OpenAI's report. The cache tokens are in the base count unless the expression uses their variable. -/
theorem openAI_params (h : u.Exact) : buildTieredTokenParams u.openAI false usedVars =
    { p := u.prompt - (if usedVars "cr" then (u.cacheRead : Int) else 0) -
        (if usedVars "cc" then (u.cacheWrite : Int) else 0)
      c := u.output, len := u.prompt, cr := u.cacheRead, cc := u.cacheWrite
      cc1h := 0, img := 0, imgO := 0, ai := 0, ao := 0 } := by
  obtain ⟨hprompt, houtput⟩ := h
  have hsum : u.prompt = u.text + u.cacheRead + u.cacheWrite := rfl
  have hexact : ∀ {n : Nat}, n ≤ 2 ^ 53 → float64 n = n := fun hn => float64_of_le (by omega) (by exact_mod_cast hn)
  have hzero : float64 0 = 0 := rfl
  have hread : subtractUsed usedVars u.prompt "cr" u.cacheRead =
      u.prompt - (if usedVars "cr" then (u.cacheRead : Int) else 0) :=
    subtractUsed_of_le (by omega) (by omega) (by omega)
  obtain ⟨read, hreaddef, hreadlo, hreadhi⟩ : ∃ read : Int,
      read = (if usedVars "cr" then (u.cacheRead : Int) else 0) ∧ 0 ≤ read ∧ read ≤ u.cacheRead :=
    ⟨_, rfl, by split <;> omega, by split <;> omega⟩
  have hwrite : subtractUsed usedVars (u.prompt - read) "cc" u.cacheWrite =
      u.prompt - read - (if usedVars "cc" then (u.cacheWrite : Int) else 0) :=
    subtractUsed_of_le (by omega) (by omega) (by omega)
  obtain ⟨write, hwritedef, hwritelo, hwritehi⟩ : ∃ write : Int,
      write = (if usedVars "cc" then (u.cacheWrite : Int) else 0) ∧ 0 ≤ write ∧ write ≤ u.cacheWrite :=
    ⟨_, rfl, by split <;> omega, by split <;> omega⟩
  have hp : 0 ≤ u.prompt - read - write ∧ u.prompt - read - write ≤ 2 ^ 53 := by omega
  have hc : (0 : Int) ≤ u.output ∧ (u.output : Int) ≤ 2 ^ 53 := by omega
  unfold buildTieredTokenParams PhysicalUsage.openAI
  simp only [String.reduceEq, if_false, Bool.false_eq_true, hexact hprompt, hexact houtput,
    hexact (show u.cacheRead ≤ 2 ^ 53 by omega), hexact (show u.cacheWrite ≤ 2 ^ 53 by omega), hzero]
  rw [hread, ← hreaddef, hwrite, ← hwritedef]
  simp only [subtractUsed_zero hp.1 hp.2, subtractUsed_zero hc.1 hc.2, if_neg (Int.not_lt.2 hp.1),
    if_neg (Int.not_lt.2 hc.1)]

theorem claude_params (h : u.Exact) : buildTieredTokenParams (u.claude split) true usedVars =
    { p := u.text, c := u.output
      len := u.text + u.cacheRead + (if split then (u.cacheWrite : Int) else 0), cr := u.cacheRead
      cc := if split then u.cacheWrite5m else 0, cc1h := if split then u.cacheWrite1h else 0
      img := 0, imgO := 0, ai := 0, ao := 0 } := by
  obtain ⟨hprompt, houtput⟩ := h
  have hsum : u.prompt = u.text + u.cacheRead + (u.cacheWrite5m + u.cacheWrite1h) := rfl
  have hexact : ∀ {n : Int}, 0 ≤ n → n ≤ u.prompt → float64 n = n :=
    fun hlo hhi => float64_of_le hlo (by omega)
  have hout : float64 u.output = u.output := float64_of_le (by omega) (by omega)
  have hzero : float64 0 = 0 := rfl
  unfold buildTieredTokenParams PhysicalUsage.claude
  cases split with
  | false =>
    simp only [if_true, Bool.false_eq_true, if_false, hzero, hout]
    simp only [Int.add_zero]
    rw [hexact (n := u.text) (by omega) (by omega), hexact (n := u.cacheRead) (by omega) (by omega),
      hexact (n := u.text + u.cacheRead) (by omega) (by omega),
      hexact (n := u.text + u.cacheRead) (by omega) (by omega),
      hexact (n := u.text + u.cacheRead) (by omega) (by omega), if_neg (by omega), if_neg (by omega)]
  | true =>
    simp only [if_true, hzero, hout]
    rw [hexact (n := u.text) (by omega) (by omega), hexact (n := u.cacheRead) (by omega) (by omega),
      hexact (n := u.cacheWrite5m) (by omega) (by omega), hexact (n := u.cacheWrite1h) (by omega) (by omega),
      hexact (n := u.text + u.cacheRead) (by omega) (by omega),
      hexact (n := u.text + u.cacheRead + u.cacheWrite5m) (by omega) (by omega),
      hexact (n := u.text + u.cacheRead + u.cacheWrite5m + u.cacheWrite1h) (by omega) (by omega),
      if_neg (by omega), if_neg (by omega), PhysicalUsage.cacheWrite]
    congr 1
    omega

/-- The counts that the settlement of a request takes. -/
def TextRequest.tieredTokenParams (req : TextRequest) (usage : TieredUsage) (usedVars : String → Bool) : TokenParams :=
  buildTieredTokenParams usage (req.isClaudeUsageSemantic usage.toUsage) usedVars

/-- What the contract says of a usage and an expression: one request is answered in OpenAI's format, the other in
Claude's. -/
def UpstreamAgnostic (req : TextRequest) (usedVars : String → Bool) (split : Bool) (u : PhysicalUsage) : Prop :=
  let openAI := { req with claudeFormat := false }.tieredTokenParams u.openAI usedVars
  let claude := req.tieredTokenParams (u.claude split) usedVars
  SameFor usedVars openAI claude ∧ CountsOnce usedVars u openAI ∧ CountsOnce usedVars u claude

/-- The contract is met just if the cache tokens that there are have a variable that the expression uses, and Claude
tells them apart and all are written for five minutes. -/
theorem upstream_agnostic_iff (req : TextRequest) (h : u.Exact) : UpstreamAgnostic req usedVars split u ↔
    (u.cacheRead = 0 ∨ usedVars "cr" = true) ∧
      (u.cacheWrite = 0 ∨ usedVars "cc" = true ∧ split = true ∧ u.cacheWrite1h = 0) := by
  have hsum : u.prompt = u.text + u.cacheRead + u.cacheWrite := rfl
  have hwrites : u.cacheWrite = u.cacheWrite5m + u.cacheWrite1h := rfl
  have hopenAI : { req with claudeFormat := false }.tieredTokenParams u.openAI usedVars = _ := openAI_params h
  have hclaude : req.tieredTokenParams (u.claude split) usedVars = _ := claude_params h
  unfold UpstreamAgnostic
  dsimp only
  rw [hopenAI, hclaude]
  constructor
  · rintro ⟨⟨hp, -, -, hvalue⟩, -, -⟩
    have hcc : usedVars "cc" = true → (u.cacheWrite : Int) = if split then (u.cacheWrite5m : Int) else 0 :=
      fun hused => Option.some.inj (hvalue "cc" hused)
    -- what the expression does not price by itself is in OpenAI's base count, and not in Claude's
    have hbase : (u.cacheRead : Int) + u.cacheWrite =
        (if usedVars "cr" then (u.cacheRead : Int) else 0) + (if usedVars "cc" then (u.cacheWrite : Int) else 0) := by
      dsimp only at hp
      omega
    cases hread : usedVars "cr" <;> cases hwrite : usedVars "cc" <;> cases split <;>
      simp [hread, hwrite] at hbase hcc ⊢ <;> omega
  · rintro ⟨hread, hwrite⟩
    have hreadUsed : (if usedVars "cr" then (u.cacheRead : Int) else 0) = u.cacheRead := by
      rcases hread with hread | hread <;> simp [hread]
    have hwriteUsed : (if usedVars "cc" then (u.cacheWrite : Int) else 0) = u.cacheWrite := by
      rcases hwrite with hwrite | ⟨hwrite, -, -⟩ <;> simp [hwrite]
    have hwritten : (if split then (u.cacheWrite : Int) else 0) = u.cacheWrite ∧
        (if split then (u.cacheWrite5m : Int) else 0) = u.cacheWrite ∧
        (if split then (u.cacheWrite1h : Int) else 0) = 0 := by
      rcases hwrite with hwrite | ⟨-, hsplit, hwrite⟩
      · cases split <;> simp <;> omega
      · simp [hsplit]
        omega
    have hbase : (u.prompt : Int) - u.cacheRead - u.cacheWrite = u.text := by omega
    have hlen : (u.prompt : Int) = u.text + u.cacheRead + u.cacheWrite := by omega
    -- the two counts are the same
    rw [hreadUsed, hwriteUsed, hwritten.1, hwritten.2.1, hwritten.2.2, hbase, ← hlen]
    have hcounts : ∀ t : TokenParams, t.p = u.text → t.cr = u.cacheRead → t.cc = u.cacheWrite → t.cc1h = 0 →
        t.img = 0 → t.ai = 0 → CountsOnce usedVars u t := by
      intro t hp hcr hcc hcc1h himg hai
      rw [CountsOnce, hp, hcr, hcc, hcc1h, himg, hai, hreadUsed, hwriteUsed]
      simp only [ite_self]
      omega
    exact ⟨⟨rfl, rfl, rfl, fun _ _ => rfl⟩, hcounts _ rfl rfl rfl rfl rfl rfl, hcounts _ rfl rfl rfl rfl rfl rfl⟩

end

/-- A request of which a part is read from the cache. -/
def cachedUsage : PhysicalUsage := { text := 1000, cacheRead := 200, cacheWrite5m := 0, cacheWrite1h := 0, output := 100 }

/-- An expression such as `p * 3 + c * 15`. -/
def baseVars (name : String) : Bool := name = "p" ∨ name = "c"

theorem upstream_agnostic_iff_cached : UpstreamAgnostic {} baseVars false cachedUsage ↔
    (cachedUsage.cacheRead = 0 ∨ baseVars "cr" = true) ∧
      (cachedUsage.cacheWrite = 0 ∨ baseVars "cc" = true ∧ false = true ∧ cachedUsage.cacheWrite1h = 0) :=
  upstream_agnostic_iff {} (by decide)

/-- The cached tokens are in OpenAI's base count, and nowhere in Claude's. -/
theorem cached_not_agnostic :
    (TextRequest.tieredTokenParams {} cachedUsage.openAI baseVars).p = 1200 ∧
      (TextRequest.tieredTokenParams { claudeFormat := true } (cachedUsage.claude false) baseVars).p = 1000 ∧
      ¬ UpstreamAgnostic { claudeFormat := true } baseVars false cachedUsage := by
  refine ⟨by decide, by decide, fun h => ?_⟩
  exact absurd h.1.1 (by decide)

end Billing

end NewApi
