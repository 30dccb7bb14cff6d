import Mathlib.Data.Finset.Insert
import Mathlib.Data.List.AList
import NewApi.Lib.GoString
import NewApi.Lib.Procs

/-!
# The cache of billing expressions

Expressions are compiled once: the cache holds their programs, and the variables that these use, under the hashes of the
expressions. It is cleared when the rules change, and when it is full. `UsedVars` looks for an expression in the cache, compiles
it if it is not there, and then looks again; what it answers is what the second look finds.

`UsedVars` answers with the variables of the expression in exactly the runs where this second look finds the entry still there
(`stable_iff`).
-/

namespace NewApi.ExprCache

open Run Procs

/-- A node of the tree of a program: an identifier, or a node of another kind. -/
inductive Node
  | identifier (value : String)
  | other (children : List Node)

structure Program where
  node : Node

structure CachedEntry where
  prog : Program
  usedVars : Finset String
  version : ℕ

/-- The cached entries by the hashes of their expressions. -/
abbrev Cache := AList fun _ : String => CachedEntry

def maxCacheSize : ℕ := 256

def defaultExprVersion : ℕ := 1

/-- `ParseExprVersion`. -/
def parseExprVersion (exprStr : String) : ℕ × String :=
  if GoString.hasPrefix exprStr "v1:" then (1, GoString.after exprStr "v1:") else (defaultExprVersion, exprStr)

/-- `expr.Compile`, of a body in the environment of a version. There is no empty expression. -/
structure Compiler where
  compile : ℕ → String → Except String Program
  empty : ∀ version, ∃ err, compile version "" = .error err

mutual

/-- The nodes in the order in which `ast.Find` visits them. -/
def Node.walk : Node → List Node
  | .identifier value => [.identifier value]
  | .other children => walkAll children ++ [.other children]

def walkAll : List Node → List Node
  | [] => []
  | n :: rest => n.walk ++ walkAll rest

end

def visit (vars : Finset String) : Node → Finset String
  | .identifier value => insert value vars
  | .other _ => vars

def extractUsedVars (prog : Program) : Finset String := prog.node.walk.foldl visit ∅

/-- `cache[hash] = entry`, of a cache that is cleared when it is full. -/
def store (cache : Cache) (hash : String) (entry : CachedEntry) : Cache :=
  if cache.entries.length ≥ maxCacheSize then (∅ : Cache).insert hash entry else cache.insert hash entry

inductive Call
  | usedVars (exprStr : String)
  /-- `CompileFromCache`, or `CompileFromCacheByHash` with the hash of the expression. -/
  | compileFromCache (exprStr : String)
  | invalidateCache
  deriving DecidableEq

/-- What `compileFromCacheByHash` returns to. -/
inductive Caller
  | usedVars
  | compileFromCache
  deriving DecidableEq

/-- Where a call is: before its first look at the cache, in `compileFromCacheByHash` before or after it has compiled the expression,
at the second look of `UsedVars`, or at its end. -/
inductive Proc
  | call (c : Call)
  | compiling (caller : Caller) (exprStr hash : String)
  | storing (caller : Caller) (exprStr hash : String) (entry : CachedEntry)
  | rereading (exprStr hash : String)
  | usedVars (exprStr : String) (vars : Option (Finset String))
  | compiled (exprStr : String) (r : Except String Program)
  | done

/-- The expression is compiled. -/
def Caller.return (caller : Caller) (exprStr hash : String) (r : Except String Program) : Proc :=
  match caller, r with
  | .usedVars, .error _ => .usedVars exprStr none
  | .usedVars, .ok _ => .rereading exprStr hash
  | .compileFromCache, r => .compiled exprStr r

section
variable (exprHashString : String → String) (c : Compiler)

/-- What an expression is compiled to. -/
def Compiler.ofExpr (exprStr : String) : Except String Program :=
  (c.compile (parseExprVersion exprStr).1 (parseExprVersion exprStr).2).mapError fun err => "expr compile error: " ++ err

/-- The part of a call up to the next time that it takes or releases the lock. -/
def prog (cache : Cache) (p : Proc) (_ : Unit) : Cache × Proc :=
  match p with
  | .call (.usedVars exprStr) =>
    if exprStr = "" then (cache, .usedVars exprStr none)
    else
      match cache.lookup (exprHashString exprStr) with
      | some entry => (cache, .usedVars exprStr (some entry.usedVars))
      | none => (cache, .compiling .usedVars exprStr (exprHashString exprStr))
  | .call (.compileFromCache exprStr) => (cache, .compiling .compileFromCache exprStr (exprHashString exprStr))
  | .call .invalidateCache => (∅, .done)
  | .compiling caller exprStr hash =>
    match cache.lookup hash with
    | some entry => (cache, caller.return exprStr hash (.ok entry.prog))
    | none =>
      match c.ofExpr exprStr with
      | .error err => (cache, caller.return exprStr hash (.error err))
      | .ok prog => (cache, .storing caller exprStr hash ⟨prog, extractUsedVars prog, (parseExprVersion exprStr).1⟩)
  | .storing caller exprStr hash entry => (store cache hash entry, caller.return exprStr hash (.ok entry.prog))
  | .rereading exprStr hash => (cache, .usedVars exprStr ((cache.lookup hash).map CachedEntry.usedVars))
  | .usedVars exprStr vars => (cache, .usedVars exprStr vars)
  | .compiled exprStr r => (cache, .compiled exprStr r)
  | .done => (cache, .done)

def step : Procs Cache Proc → Act Call Unit → Procs Cache Proc := Procs.step .call (prog exprHashString c)

/-- The variable occurs in the tree. -/
inductive Occurs (name : String) : Node → Prop
  | identifier : Occurs name (.identifier name)
  | other {n : Node} {children : List Node} : n ∈ children → Occurs name n → Occurs name (.other children)

/-- What a call has returned is right: `UsedVars` returns the variables of an expression that compiles, and the compile function
its program. -/
def Right : Proc → Prop
  | .usedVars exprStr vars => ∀ prog, c.ofExpr exprStr = .ok prog → ∃ s, vars = some s ∧ ∀ name, name ∈ s ↔ Occurs name prog.node
  | .compiled exprStr r => r = c.ofExpr exprStr
  | _ => True

/-- All calls that have returned are right. -/
def Stable (S : Procs Cache Proc) : Prop := ∀ p ∈ S.procs, Right c p

/-- The condition on a step: the second look of `UsedVars` finds an entry. -/
def StillCached (cache : Cache) (p : Proc) (_ : Unit) : Prop :=
  match p with
  | .rereading _ hash => (cache.lookup hash).isSome
  | _ => True

end

def Call.exprStr : Call → Option String
  | .usedVars exprStr => some exprStr
  | .compileFromCache exprStr => some exprStr
  | .invalidateCache => none

/-- The expressions of a run. -/
def expressions (acts : List (Act Call Unit)) : Set String := {exprStr | ∃ c : Call, .spawn c ∈ acts ∧ c.exprStr = some exprStr}

section
variable {exprHashString : String → String} {c : Compiler} {E : Set String} {cache : Cache} {p : Proc}
  {entry : CachedEntry} {exprStr hash name : String} {n : Node} {l : List Node}

/-! ## The variables of a program -/

mutual

theorem mem_walk : ∀ {n : Node}, .identifier name ∈ n.walk ↔ Occurs name n
  | .identifier value => by
    rw [Node.walk, List.mem_singleton, Node.identifier.injEq]
    exact ⟨fun h => h ▸ .identifier, fun h => by cases h; rfl⟩
  | .other children => by
    rw [Node.walk, List.mem_append, List.mem_singleton, mem_walkAll]
    constructor
    · rintro (⟨n, hn, hoccurs⟩ | h)
      · exact .other hn hoccurs
      · cases h
    · intro h
      cases h with
      | other hn hoccurs => exact .inl ⟨_, hn, hoccurs⟩

theorem mem_walkAll : ∀ {l : List Node}, .identifier name ∈ walkAll l ↔ ∃ n ∈ l, Occurs name n
  | [] => by simp [walkAll]
  | n :: rest => by
    rw [walkAll, List.mem_append, mem_walk, mem_walkAll]
    simp

end

theorem mem_foldl_visit {vars : Finset String} : name ∈ l.foldl visit vars ↔ name ∈ vars ∨ .identifier name ∈ l := by
  induction l generalizing vars with
  | nil => simp
  | cons n l ih =>
    rw [List.foldl_cons, ih, List.mem_cons]
    cases n with
    | identifier value =>
      rw [visit, Finset.mem_insert, Node.identifier.injEq, or_assoc, or_left_comm]
    | other children => simp [visit]

theorem mem_extractUsedVars {prog : Program} : name ∈ extractUsedVars prog ↔ Occurs name prog.node := by
  unfold extractUsedVars
  rw [mem_foldl_visit, mem_walk]
  simp

/-! ## What the cache holds -/

/-- The entry of an expression. -/
structure EntryOf (c : Compiler) (exprStr : String) (entry : CachedEntry) : Prop where
  prog : c.ofExpr exprStr = .ok entry.prog
  usedVars : entry.usedVars = extractUsedVars entry.prog

/-- Each entry is of an expression whose hash it is under. -/
def Filled (exprHashString : String → String) (c : Compiler) (E : Set String) (cache : Cache) : Prop :=
  ∀ hash entry, cache.lookup hash = some entry → ∃ exprStr ∈ E, exprHashString exprStr = hash ∧ EntryOf c exprStr entry

/-- What a call holds: an expression with its hash, and its entry if it has been compiled. -/
def ProcFilled (exprHashString : String → String) (c : Compiler) (E : Set String) : Proc → Prop
  | .call call => ∀ exprStr, call.exprStr = some exprStr → exprStr ∈ E
  | .compiling _ exprStr hash => exprStr ∈ E ∧ exprHashString exprStr = hash
  | .storing _ exprStr hash entry => exprStr ∈ E ∧ exprHashString exprStr = hash ∧ EntryOf c exprStr entry
  | .rereading exprStr hash => exprStr ∈ E ∧ exprHashString exprStr = hash ∧ ∃ prog, c.ofExpr exprStr = .ok prog
  | .usedVars _ _ | .compiled _ _ | .done => True

theorem filled_empty : Filled exprHashString c E ∅ := by
  intro hash entry h
  rw [AList.lookup_empty] at h
  cases h

theorem Filled.insert (h : Filled exprHashString c E cache) (hE : exprStr ∈ E) (hentry : EntryOf c exprStr entry) :
    Filled exprHashString c E (cache.insert (exprHashString exprStr) entry) := by
  intro hash entry' hlookup
  rcases eq_or_ne hash (exprHashString exprStr) with rfl | hne
  · rw [AList.lookup_insert] at hlookup
    cases hlookup
    exact ⟨exprStr, hE, rfl, hentry⟩
  · rw [AList.lookup_insert_ne hne] at hlookup
    exact h hash entry' hlookup

theorem Filled.store (h : Filled exprHashString c E cache) (hE : exprStr ∈ E) (hentry : EntryOf c exprStr entry) :
    Filled exprHashString c E (store cache (exprHashString exprStr) entry) := by
  unfold ExprCache.store
  split
  · exact filled_empty.insert hE hentry
  · exact h.insert hE hentry

theorem Filled.entryOf (h : Filled exprHashString c E cache) (hinj : Set.InjOn exprHashString E) (hE : exprStr ∈ E)
    (hlookup : cache.lookup (exprHashString exprStr) = some entry) : EntryOf c exprStr entry := by
  obtain ⟨exprStr', hE', hhash, hentry⟩ := h _ _ hlookup
  rw [← hinj hE' hE hhash]
  exact hentry

theorem ofExpr_empty {prog : Program} : c.ofExpr "" ≠ .ok prog := by
  obtain ⟨err, herr⟩ := c.empty defaultExprVersion
  intro h
  unfold Compiler.ofExpr at h
  rw [show parseExprVersion "" = (defaultExprVersion, "") from rfl, herr] at h
  cases h

theorem EntryOf.right (h : EntryOf c exprStr entry) : Right c (.usedVars exprStr (some entry.usedVars)) := by
  intro prog hprog
  have heq : entry.prog = prog := Except.ok.inj (h.prog.symm.trans hprog)
  refine ⟨_, rfl, fun name => ?_⟩
  rw [h.usedVars, heq]
  exact mem_extractUsedVars

/-! ## One step -/

theorem return_error {err : String} (caller : Caller) (h : c.ofExpr exprStr = .error err) :
    Right c (caller.return exprStr hash (.error err)) ∧
      ProcFilled exprHashString c E (caller.return exprStr hash (.error err)) := by
  cases caller with
  | usedVars =>
    refine ⟨fun prog hprog => ?_, trivial⟩
    rw [h] at hprog
    cases hprog
  | compileFromCache => exact ⟨h.symm, trivial⟩

theorem return_ok {prog : Program} (caller : Caller) (hE : exprStr ∈ E) (hhash : exprHashString exprStr = hash)
    (h : c.ofExpr exprStr = .ok prog) : Right c (caller.return exprStr hash (.ok prog)) ∧
      ProcFilled exprHashString c E (caller.return exprStr hash (.ok prog)) := by
  cases caller with
  | usedVars => exact ⟨trivial, hE, hhash, prog, h⟩
  | compileFromCache => exact ⟨h.symm, trivial⟩

theorem prog_filled (h : Filled exprHashString c E cache) (hinj : Set.InjOn exprHashString E)
    (hp : ProcFilled exprHashString c E p) (o : Unit) :
    Filled exprHashString c E (prog exprHashString c cache p o).1 ∧
      ProcFilled exprHashString c E (prog exprHashString c cache p o).2 := by
  cases p with
  | call call =>
    cases call with
    | usedVars exprStr =>
      unfold prog
      dsimp only
      split
      · exact ⟨h, trivial⟩
      split
      · exact ⟨h, trivial⟩
      · exact ⟨h, hp exprStr rfl, rfl⟩
    | compileFromCache exprStr => exact ⟨h, hp exprStr rfl, rfl⟩
    | invalidateCache => exact ⟨filled_empty, trivial⟩
  | compiling caller exprStr hash =>
    obtain ⟨hE, rfl⟩ := hp
    unfold prog
    dsimp only
    split
    · rename_i entry hlookup
      exact ⟨h, (return_ok caller hE rfl (h.entryOf hinj hE hlookup).prog).2⟩
    split
    · rename_i err herr
      exact ⟨h, (return_error caller herr).2⟩
    · rename_i prog hprog
      exact ⟨h, hE, rfl, hprog, rfl⟩
  | storing caller exprStr hash entry =>
    obtain ⟨hE, rfl, hentry⟩ := hp
    exact ⟨h.store hE hentry, (return_ok caller hE rfl hentry.prog).2⟩
  | rereading exprStr hash => exact ⟨h, trivial⟩
  | usedVars exprStr vars => exact ⟨h, trivial⟩
  | compiled exprStr r => exact ⟨h, trivial⟩
  | done => exact ⟨h, trivial⟩

/-- A call that is right so far is right after a step just when it meets the condition. -/
theorem prog_right_iff (h : Filled exprHashString c E cache) (hinj : Set.InjOn exprHashString E)
    (hp : ProcFilled exprHashString c E p) (hright : Right c p) (o : Unit) :
    Right c (prog exprHashString c cache p o).2 ↔ StillCached cache p o := by
  cases p with
  | call call =>
    refine iff_of_true ?_ trivial
    cases call with
    | usedVars exprStr =>
      unfold prog
      dsimp only
      split
      · rename_i hempty
        rw [hempty]
        exact fun prog hprog => absurd hprog ofExpr_empty
      split
      · rename_i entry hlookup
        exact (h.entryOf hinj (hp exprStr rfl) hlookup).right
      · trivial
    | compileFromCache exprStr => trivial
    | invalidateCache => trivial
  | compiling caller exprStr hash =>
    obtain ⟨hE, rfl⟩ := hp
    refine iff_of_true ?_ trivial
    unfold prog
    dsimp only
    split
    · rename_i entry hlookup
      exact (return_ok caller hE rfl (h.entryOf hinj hE hlookup).prog).1
    split
    · rename_i err herr
      exact (@return_error exprHashString c E exprStr _ err caller herr).1
    · trivial
  | storing caller exprStr hash entry =>
    obtain ⟨hE, rfl, hentry⟩ := hp
    exact iff_of_true (return_ok caller hE rfl hentry.prog).1 trivial
  | rereading exprStr hash =>
    obtain ⟨hE, rfl, prog, hprog⟩ := hp
    show Right c (.usedVars exprStr ((cache.lookup (exprHashString exprStr)).map CachedEntry.usedVars)) ↔
      (cache.lookup (exprHashString exprStr)).isSome = true
    cases hlookup : cache.lookup (exprHashString exprStr) with
    | none =>
      refine iff_of_false (fun hnone => ?_) Bool.false_ne_true
      obtain ⟨s, hs, -⟩ := hnone prog hprog
      cases hs
    | some entry => exact iff_of_true (h.entryOf hinj hE hlookup).right rfl
  | usedVars exprStr vars => exact iff_of_true hright trivial
  | compiled exprStr r => exact iff_of_true hright trivial
  | done => exact iff_of_true trivial trivial

/-! ## Runs -/

/-- The cache and the calls of a run on expressions. -/
structure Sound (exprHashString : String → String) (c : Compiler) (E : Set String) (S : Procs Cache Proc) : Prop where
  cache : Filled exprHashString c E S.shared
  procs : ∀ p ∈ S.procs, ProcFilled exprHashString c E p

/-- A call is on one of the expressions. -/
def CallsOf (E : Set String) : Act Call Unit → Prop
  | .spawn call => ∀ exprStr, call.exprStr = some exprStr → exprStr ∈ E
  | .sched _ _ => True

theorem Sound.step {S : Procs Cache Proc} (h : Sound exprHashString c E S) (hinj : Set.InjOn exprHashString E)
    (a : Act Call Unit) (ha : CallsOf E a) : Sound exprHashString c E (step exprHashString c S a) := by
  obtain ⟨hcache, hprocs⟩ := h
  cases a with
  | spawn call =>
    refine ⟨hcache, fun p hp => ?_⟩
    rcases List.mem_append.1 hp with hp | hp
    · exact hprocs p hp
    · rw [List.mem_singleton.1 hp]
      exact ha
  | sched k o =>
    unfold ExprCache.step
    cases hk : S.procs[k]? with
    | none =>
      rw [step_sched_none hk]
      exact ⟨hcache, hprocs⟩
    | some p =>
      rw [step_sched_some hk]
      obtain ⟨hcache', hp'⟩ := prog_filled hcache hinj (hprocs p (List.mem_of_getElem? hk)) o
      refine ⟨hcache', fun q hq => ?_⟩
      rcases List.mem_or_eq_of_mem_set hq with hq | rfl
      · exact hprocs q hq
      · exact hp'

theorem stable_step_iff {S : Procs Cache Proc} (h : Sound exprHashString c E S) (hinj : Set.InjOn exprHashString E)
    (hstable : Stable c S) (a : Act Call Unit) : Stable c (step exprHashString c S a) ↔ Each StillCached S a := by
  cases a with
  | spawn call =>
    refine iff_of_true (fun p hp => ?_) trivial
    rcases List.mem_append.1 hp with hp | hp
    · exact hstable p hp
    · rw [List.mem_singleton.1 hp]
      trivial
  | sched k o =>
    unfold ExprCache.step
    cases hk : S.procs[k]? with
    | none =>
      rw [step_sched_none hk]
      exact iff_of_true hstable (each_of_none hk)
    | some p =>
      have hp := List.mem_of_getElem? hk
      rw [each_iff hk, ← prog_right_iff h.cache hinj (h.procs p hp) (hstable p hp) o]
      refine ⟨fun hnew => hnew _ (mem_sched_self hk), fun hright q hq => ?_⟩
      rw [step_sched_some hk] at hq
      rcases List.mem_or_eq_of_mem_set hq with hq | rfl
      · exact hstable q hq
      · exact hright

/-- Where no two expressions have one hash, all calls return what is right in exactly the runs where the second look of `UsedVars`
always finds an entry. -/
theorem stable_iff (exprHashString : String → String) (c : Compiler) (acts : List (Act Call Unit))
    (hinj : Set.InjOn exprHashString (expressions acts)) :
    Holds (step exprHashString c) (Stable c) ⟨∅, []⟩ acts ↔
      Meets (step exprHashString c) (Each StillCached) ⟨∅, []⟩ acts := by
  have hcalls : Meets (step exprHashString c) (fun _ a => CallsOf (expressions acts) a) ⟨∅, []⟩ acts := by
    refine meets_of_mem fun a ha => ?_
    cases a with
    | spawn call => exact fun exprStr hexpr => ⟨call, ha, hexpr⟩
    | sched k o => trivial
  exact hcalls.holds_iff (fun S a hS ha => hS.step hinj a ha) (fun S a hS _ hstable => stable_step_iff hS hinj hstable a)
    ⟨filled_empty, fun p hp => by cases hp⟩ fun p hp => by cases hp

end

/-! ## A second look that comes too late -/

/-- The compiler as it is for the expressions `p` and `c`. -/
def countsCompiler : Compiler where
  compile _ body := if body = "p" ∨ body = "c" then .ok ⟨.identifier body⟩ else .error "unexpected token"
  empty _ := ⟨_, rfl⟩

/-- SHA-256, for the expression `p`. -/
def sha256 (exprStr : String) : String :=
  if exprStr = "p" then "148de9c5a7a44d19e56cd9ae1a554bf67847afb0c58f6e12fa29ac7ddfca9940" else exprStr

theorem stable_iff_one :
    Holds (step sha256 countsCompiler) (Stable countsCompiler) ⟨∅, []⟩ [.spawn (.usedVars "p"), .sched 0 ()] ↔
      Meets (step sha256 countsCompiler) (Each StillCached) ⟨∅, []⟩ [.spawn (.usedVars "p"), .sched 0 ()] := by
  refine stable_iff sha256 countsCompiler _ ?_
  rintro x ⟨call, hcall, hx⟩ y ⟨call', hcall', hy⟩ -
  simp only [List.mem_cons, Act.spawn.injEq, List.not_mem_nil, reduceCtorEq, or_false] at hcall hcall'
  subst hcall hcall'
  cases hx
  cases hy
  rfl

/-- The cache is cleared between the two looks: there is no variable in `p`, it seems. -/
theorem not_stable_cleared :
    ∃ S, S = run (step sha256 countsCompiler) ⟨∅, []⟩
        [.spawn (.usedVars "p"), .sched 0 (), .sched 0 (), .sched 0 (), .spawn .invalidateCache, .sched 1 (), .sched 0 ()] ∧
      .usedVars "p" none ∈ S.procs ∧ ¬ Stable countsCompiler S := by
  have hmem : Proc.usedVars "p" none ∈ (run (step sha256 countsCompiler) ⟨∅, []⟩
      [.spawn (.usedVars "p"), .sched 0 (), .sched 0 (), .sched 0 (), .spawn .invalidateCache, .sched 1 (), .sched 0 ()]).procs :=
    List.mem_cons_self
  refine ⟨_, rfl, hmem, fun h => ?_⟩
  obtain ⟨s, hs, -⟩ := h _ hmem ⟨.identifier "p"⟩ rfl
  cases hs

end NewApi.ExprCache
