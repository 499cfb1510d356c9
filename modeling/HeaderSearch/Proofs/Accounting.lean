import Mathlib.Algebra.BigOperators.Group.Finset.Basic
import HeaderSearch.Proofs.CacheSize
import HeaderSearch.Proofs.NewQuestions
import HeaderSearch.Proofs.Rounding

/-!
# The counts account for the run

After any calls on a new list the counts say what these calls were and what they met. The sums go over
the different questions: the names and kinds that were taken to the list, and the names asked for
beside including files with their directories. Each of them is remembered once, and each lookup that
was not answered from memory put exactly one of them there that answered it.
-/

namespace HeaderSearch

/-- Whether a call is a lookup over the list. -/
def SearchCall.isResolve : SearchCall → Bool
  | .resolve _ _ _ _ => true
  | .lookup _ _ _ => false

namespace SearchList

section Calling

variable {m : Type → Type} [Monad m] [FileStore m] (list : SearchList)

/-- Makes calls in their order and gathers the answers of the lookups over the list. -/
def answerAll : List SearchCall → StateT SearchMemo m (List (Option FoundHeader))
  | [] => return []
  | .resolve name kind includer want :: calls => do
    let answer ← list.resolve name kind includer want
    let answers ← answerAll calls
    return answer :: answers
  | .lookup index name want :: calls => do
    let _ ← list.lookupIn index name want
    answerAll calls

end Calling

variable (view : FileView) (list : SearchList)

/-- The questions that calls take to the list. -/
def taken (calls : List SearchCall) : Finset (String × IncludeKind) :=
  (calls.filterMap (SearchCall.listQuestion? view)).toFinset

/-- The questions that calls have beside including files. -/
def askedBeside (calls : List SearchCall) : Finset (DirHandle × String) :=
  (calls.filterMap SearchCall.besideQuestion?).toFinset

/-- The questions that calls have beside including files and that a file answers. -/
def heldBeside (calls : List SearchCall) : Finset (DirHandle × String) :=
  (askedBeside calls).filter fun question => (view.file? question.1 question.2).isSome

/-- How many entries a search for a name of a kind looks into: those up to the first that has it, or
    all that the kind looks into if none has it. -/
def probesFor (question : String × IncludeKind) : Nat :=
  let items := list.eligible question.2
  match items.findIdx? fun item =>
      (view.probe list.systemFrameworks item.1.place question.1).isSome with
  | some position => position + 1
  | none => items.length

/-- The answer that a call has if it is a lookup over the list. -/
def answer? : SearchCall → Option (Option FoundHeader)
  | .resolve name kind includer want => some (list.plainAnswer view name kind includer want)
  | .lookup _ _ _ => none

/-- Each lookup over the list has one answer. -/
theorem answers_length (calls : List SearchCall) :
    (calls.filterMap (list.answer? view)).length = calls.countP SearchCall.isResolve := by
  induction calls with
  | nil => rfl
  | cons call calls inductionHypothesis =>
    cases call with
    | resolve name kind includer want =>
      rw [List.countP_cons_of_pos rfl, ← inductionHypothesis]
      rfl
    | lookup index name want =>
      rw [List.countP_cons_of_neg Bool.false_ne_true, ← inductionHypothesis]
      rfl

/-- As many entries are visited as a search looks into. -/
theorem visited_length (name : String) (items : List (SearchEntry × Nat)) :
    (list.visited view name items).length =
      match items.findIdx? fun item =>
        (view.probe list.systemFrameworks item.1.place name).isSome with
      | some position => position + 1
      | none => items.length := by
  induction items with
  | nil => rfl
  | cons item items inductionHypothesis =>
    rw [visited, List.length_cons, List.findIdx?_cons]
    cases (view.probe list.systemFrameworks item.1.place name).isSome with
    | true => rfl
    | false =>
      simp only [Bool.false_eq_true, if_false, inductionHypothesis]
      cases items.findIdx? fun item =>
        (view.probe list.systemFrameworks item.1.place name).isSome <;> rfl

/-- What the directory of the including file answers names it as origin. -/
theorem origin_of_beside {name : String} {kind : IncludeKind} {includer : Option Includer}
    {want : PathRequest} {header : FoundHeader}
    (answered : view.besideAnswer name kind includer want = some header) :
    header.origin = .includer := by
  unfold FileView.besideAnswer at answered
  split at answered
  · obtain ⟨file, -, rfl⟩ := Option.map_eq_some_iff.mp answered
    rfl
  · simp at answered

/-- What the list answers names an entry as origin. -/
theorem origin_of_first {name : String} {kind : IncludeKind} {want : PathRequest}
    {header : FoundHeader} (answered : list.firstAnswer view name kind want = some header) :
    header.origin ≠ .includer := by
  obtain ⟨index, entry, -, entryAnswered, -⟩ := (list.first_answer_iff view).mp answered
  unfold entryAnswer at entryAnswered
  split at entryAnswered
  · obtain ⟨found, -, rfl⟩ := Option.map_eq_some_iff.mp entryAnswered
    exact Origin.noConfusion
  · simp at entryAnswered

/-- The directory of the including file answers exactly the lookups whose answers name it as origin. -/
theorem origin_includer_iff (name : String) (kind : IncludeKind) (includer : Option Includer)
    (want : PathRequest) :
    ((list.plainAnswer view name kind includer want).any fun header =>
        decide (header.origin = .includer)) =
      (SearchCall.resolve name kind includer want).answeredBeside view := by
  have beside : (SearchCall.resolve name kind includer want).answeredBeside view =
      (view.besideAnswer name kind includer want).isSome := by
    rw [Reading.plain_beside_isSome, list.beside_answer_eq, Option.isSome_map]
  rw [beside, plainAnswer]
  cases beside : view.besideAnswer name kind includer want with
  | some header => simp [origin_of_beside view beside]
  | none =>
    cases first : list.firstAnswer view name kind want with
    | some header => simp [list.origin_of_first view first]
    | none => rfl

section Snoc

variable {view list} {calls : List SearchCall} {call : SearchCall}

theorem taken_of_none (untaken : call.listQuestion? view = none) :
    taken view (calls ++ [call]) = taken view calls := by
  simp [taken, untaken]

theorem taken_of_some {question : String × IncludeKind}
    (asked : call.listQuestion? view = some question) :
    taken view (calls ++ [call]) = insert question (taken view calls) := by
  ext other
  simp [taken, asked]

theorem asked_of_none (unasked : call.besideQuestion? = none) :
    askedBeside (calls ++ [call]) = askedBeside calls := by
  simp [askedBeside, unasked]

theorem asked_of_some {question : DirHandle × String}
    (asked : call.besideQuestion? = some question) :
    askedBeside (calls ++ [call]) = insert question (askedBeside calls) := by
  ext other
  simp [askedBeside, asked]

theorem held_of_answered {question : DirHandle × String}
    (asked : call.besideQuestion? = some question)
    (held : (view.file? question.1 question.2).isSome) :
    heldBeside view (calls ++ [call]) = insert question (heldBeside view calls) := by
  rw [heldBeside, asked_of_some asked, Finset.filter_insert, if_pos held]
  rfl

theorem held_of_unanswered (unanswered : call.answeredBeside view = false) :
    heldBeside view (calls ++ [call]) = heldBeside view calls := by
  rw [heldBeside]
  cases asked : call.besideQuestion? with
  | none =>
    rw [asked_of_none asked]
    rfl
  | some question =>
    have absent : ¬ (view.file? question.1 question.2).isSome := by
      simpa [SearchCall.answeredBeside, asked] using unanswered
    rw [asked_of_some asked, Finset.filter_insert, if_neg absent]
    rfl

/-- What is known of the list is what was taken to it. -/
theorem mem_known_listed {question : String × IncludeKind} :
    question ∈ (list.known view calls).listed ↔ question ∈ taken view calls :=
  List.mem_toFinset.symm

/-- What is known beside including files is what was asked there. -/
theorem mem_known_beside {question : DirHandle × String} :
    question ∈ (list.known view calls).beside ↔ question ∈ askedBeside calls :=
  List.mem_toFinset.symm

variable {name : String} {kind : IncludeKind} {includer : Option Includer} {want : PathRequest}

/-- A lookup that is not answered from memory adds the one question that answers it. -/
theorem remembered_or_new (view : FileView) (list : SearchList) (calls : List SearchCall)
    (name : String) (kind : IncludeKind) (includer : Option Includer) (want : PathRequest) :
    let call := SearchCall.resolve name kind includer want
    (if remembers view call (list.known view calls) then 1 else 0) +
        ((taken view (calls ++ [call])).card + (heldBeside view (calls ++ [call])).card) =
      (taken view calls).card + (heldBeside view calls).card + 1 := by
  intro call
  cases answered : call.answeredBeside view with
  | true =>
    obtain ⟨question, asked, held⟩ := Option.any_eq_true _ _ |>.mp answered
    rw [taken_of_none (list_question_of_answered answered), held_of_answered asked held,
      remembers_of_answered answered, asked, Option.any_some]
    simp only [mem_known_beside, decide_eq_true_eq]
    by_cases made : question ∈ askedBeside calls
    · have member : question ∈ heldBeside view calls := Finset.mem_filter.mpr ⟨made, held⟩
      rw [if_pos made, Finset.insert_eq_of_mem member]
      omega
    · have new : question ∉ heldBeside view calls := fun member =>
        made (Finset.mem_of_mem_filter _ member)
      rw [if_neg made, Finset.card_insert_of_notMem new]
      omega
  | false =>
    rw [taken_of_some (list_question_of_unanswered answered), held_of_unanswered answered,
      remembers_of_unanswered answered]
    simp only [mem_known_listed, decide_eq_true_eq]
    by_cases made : (name, kind) ∈ taken view calls
    · rw [if_pos made, Finset.insert_eq_of_mem made]
      omega
    · rw [if_neg made, Finset.card_insert_of_notMem made]
      omega

/-- The entries that a lookup looks into are those that its question needs if it is new. -/
theorem probes_snoc :
    let call := SearchCall.resolve name kind includer want
    ∑ question ∈ taken view (calls ++ [call]), list.probesFor view question =
      ∑ question ∈ taken view calls, list.probesFor view question +
        (list.searched view call (list.known view calls)).length := by
  intro call
  cases answered : call.answeredBeside view with
  | true =>
    rw [taken_of_none (list_question_of_answered answered), searched_of_answered answered]
    rfl
  | false =>
    rw [taken_of_some (list_question_of_unanswered answered), searched_of_unanswered answered]
    simp only [mem_known_listed]
    by_cases made : (name, kind) ∈ taken view calls
    · rw [Finset.insert_eq_of_mem made, if_pos made]
      rfl
    · rw [Finset.sum_insert made, if_neg made, visited_length, Nat.add_comm]
      rfl

end Snoc

end SearchList

/-- The counts after some calls on a new list. -/
structure SearchStats.Accounts (stats : SearchStats) (view : FileView) (list : SearchList)
    (calls : List SearchCall) : Prop where
  lookups : stats.lookups = (calls.filterMap (list.answer? view)).length
  includerHits : stats.includerHits = (calls.filterMap (list.answer? view)).countP fun answer =>
    answer.any fun header => decide (header.origin = .includer)
  misses : stats.misses = (calls.filterMap (list.answer? view)).countP (· = none)
  remembered : stats.cacheHits + ((SearchList.taken view calls).card +
    (SearchList.heldBeside view calls).card) = stats.lookups
  entryProbes : stats.entryProbes =
    ∑ question ∈ SearchList.taken view calls, list.probesFor view question

namespace SearchStats.Accounts

variable {view : FileView} {list : SearchList} {stats : SearchStats} {calls : List SearchCall}

/-- Nothing is counted before the first call. -/
theorem fresh : SearchStats.Accounts {} view list [] := by
  constructor <;> rfl

/-- The counts account for one more call. -/
theorem snoc (accounts : stats.Accounts view list calls) (call : SearchCall) :
    (list.counted view call (list.known view calls) stats).Accounts view list (calls ++ [call]) := by
  cases call with
  | lookup index name want =>
    have taken : SearchList.taken view (calls ++ [.lookup index name want]) = _ :=
      SearchList.taken_of_none rfl
    have held : SearchList.heldBeside view (calls ++ [.lookup index name want]) = _ :=
      SearchList.held_of_unanswered rfl
    have answers : (calls ++ [SearchCall.lookup index name want]).filterMap (list.answer? view) =
        calls.filterMap (list.answer? view) := by
      simp [SearchList.answer?]
    exact ⟨answers ▸ accounts.lookups, answers ▸ accounts.includerHits, answers ▸ accounts.misses,
      by rw [taken, held]; exact accounts.remembered, by rw [taken]; exact accounts.entryProbes⟩
  | resolve name kind includer want =>
    have answers : (calls ++ [SearchCall.resolve name kind includer want]).filterMap
        (list.answer? view) =
        calls.filterMap (list.answer? view) ++ [list.plainAnswer view name kind includer want] := by
      simp [SearchList.answer?]
    constructor
    · rw [answers, List.length_append, ← accounts.lookups]
      rfl
    · rw [answers, List.countP_append, ← accounts.includerHits, List.countP_singleton,
        SearchList.origin_includer_iff]
      rfl
    · rw [answers, List.countP_append, ← accounts.misses, List.countP_singleton]
      simp [SearchList.counted]
    · have balance := SearchList.remembered_or_new view list calls name kind includer want
      have before := accounts.remembered
      simp only [SearchList.counted] at balance ⊢
      omega
    · rw [SearchList.probes_snoc, ← accounts.entryProbes]
      rfl

end SearchStats.Accounts

/-- The share of remembered answers is not negative and at most one if there are no more of them than
    lookups: rounding the two counts and their quotient keeps the order. -/
theorem SearchStats.hit_rate_le_one {stats : SearchStats}
    (atMost : stats.cacheHits ≤ stats.lookups) :
    stats.hitRate.negative = false ∧ stats.hitRate.magnitude ≤ 1 := by
  have nothing : Binary64.zero.negative = false ∧ Binary64.zero.magnitude ≤ 1 := by
    simp [Binary64.zero, Binary64.magnitude]
  unfold hitRate
  split
  · exact nothing
  · next asked =>
    cases computed : (do
      let hits ← Binary64.ofNat? stats.cacheHits
      let lookups ← Binary64.ofNat? stats.lookups
      hits.div? lookups) with
    | none => exact nothing
    | some rate =>
      obtain ⟨hits, hitsRounded, rest⟩ := Option.bind_eq_some_iff.mp computed
      obtain ⟨lookups, lookupsRounded, divided⟩ := Option.bind_eq_some_iff.mp rest
      have ordered : hits.magnitude ≤ lookups.magnitude :=
        Binary64.ofRatio?_mono Nat.one_pos Nat.one_pos (by omega) hitsRounded lookupsRounded
      have something : 1 ≤ lookups.magnitude :=
        Binary64.one_le_ofRatio? Nat.one_pos (by omega) lookupsRounded
      have signs : hits.negative = lookups.negative :=
        (Binary64.ofRatio?_negative hitsRounded).trans
          (Binary64.ofRatio?_negative lookupsRounded).symm
      exact ⟨Binary64.div?_negative signs divided,
        Binary64.div?_le_one ordered (one_pos.trans_le something) divided⟩

namespace Reading

variable {view : FileView} {list : SearchList} {memo : SearchMemo} {log : List Query}

/-- Calls end with the answers of the search without memory and with counts that account for them.
    Induct on the calls: the counts account for those made so far. -/
theorem run_answer_all (log : List Query) (earlier calls : List SearchCall)
    (recalls : Naming.itself.Recalls view list memo)
    (holds : memo.Holds view list (list.known view earlier))
    (accounts : memo.stats.Accounts view list earlier) :
    ∃ after longer, Runs.run
        (list.answerAll calls : StateT SearchMemo (Observed view) (List (Option FoundHeader)))
        (memo, log) = (calls.filterMap (list.answer? view), after, longer) ∧
      after.Holds view list (list.known view (earlier ++ calls)) ∧
      after.stats.Accounts view list (earlier ++ calls) := by
  induction calls generalizing memo log earlier with
  | nil =>
    rw [List.append_nil]
    exact ⟨memo, log, by simp [SearchList.answerAll], holds, accounts⟩
  | cons call calls inductionHypothesis =>
    have rest {between : SearchMemo} (longer : List Query)
        (recallsBetween : Naming.itself.Recalls view list between)
        (stats : between.stats = list.counted view call (list.known view earlier) memo.stats)
        (holdsBetween : between.Holds view list (list.learn view (list.known view earlier) call)) :=
      inductionHypothesis longer (earlier ++ [call]) recallsBetween
        (SearchList.known_snoc view list earlier call ▸ holdsBetween)
        (stats ▸ accounts.snoc call)
    rw [← List.append_cons] at rest
    cases call with
    | resolve name kind includer want =>
      obtain ⟨between, ran, stats, holdsBetween⟩ :=
        run_resolve log name kind includer want recalls holds
      have recallsBetween :=
        recalls_after (resolve_itself name kind includer want ⟨trivial, recalls⟩) ran
      obtain ⟨after, longer, ranRest, ended⟩ := rest _ recallsBetween stats holdsBetween
      refine ⟨after, longer, ?_, ended⟩
      simp only [SearchList.answerAll, Runs.run_bind, ran]
      rw [ranRest]
      simp [SearchList.answer?]
    | lookup index name want =>
      obtain ⟨value, between, ran, stats, holdsBetween⟩ :=
        run_lookup_in log index name want recalls holds
      have recallsBetween := recalls_after (lookup_in_itself index name want ⟨trivial, recalls⟩) ran
      obtain ⟨after, longer, ranRest, ended⟩ := rest _ recallsBetween stats holdsBetween
      refine ⟨after, longer, ?_, ended⟩
      simp only [SearchList.answerAll, Runs.run_bind, ran]
      rw [ranRest]
      rfl

end Reading

namespace SearchList

variable (view : FileView) (list : SearchList)

/-- The answers of the lookups among some calls on the new list, and what the list then remembers. -/
def outcomeOf (calls : List SearchCall) : List (Option FoundHeader) × SearchMemo :=
  let computation : StateT SearchMemo (Observed view) (List (Option FoundHeader)) :=
    list.answerAll calls
  (computation.run .fresh).value

/-- The counts after any calls on a new list. There are as many lookups as answers, hits of including
    files as answers that name them as origin, and misses as answers without a header. An outcome is
    remembered for each question taken to the list and for each asked beside including files, and the
    lookups not answered from memory are as many as the questions of the first sort and those of the
    second that a file answers. So the share of remembered answers is at most one. The entries looked
    into are those that each question taken to the list needs once. -/
theorem counts_account_for_calls (calls : List SearchCall) :
    let (answers, memo) := list.outcomeOf view calls
    let stats := memo.stats
    answers.length = calls.countP SearchCall.isResolve ∧
    stats.lookups = calls.countP SearchCall.isResolve ∧
    stats.includerHits = answers.countP (fun answer =>
      answer.any fun header => decide (header.origin = .includer)) ∧
    stats.misses = answers.countP (· = none) ∧
    memo.cache.size = (taken view calls).card + (askedBeside calls).card ∧
    stats.lookups - stats.cacheHits = (taken view calls).card + (heldBeside view calls).card ∧
    stats.cacheHits ≤ stats.lookups ∧
    stats.hitRate.negative = false ∧ stats.hitRate.magnitude ≤ 1 ∧
    stats.entryProbes = ∑ question ∈ taken view calls, list.probesFor view question := by
  obtain ⟨after, longer, ran, holds, accounts⟩ := Reading.run_answer_all [] [] calls
    Naming.Recalls.fresh (SearchMemo.Holds.fresh view list)
    SearchStats.Accounts.fresh
  have ended : list.outcomeOf view calls = (calls.filterMap (list.answer? view), after) :=
    Prod.ext (congrArg (fun run => run.1) ran) (congrArg (fun run => run.2.1) ran)
  rw [List.nil_append] at holds accounts
  have answers := list.answers_length view calls
  have remembered := accounts.remembered
  have size : after.cache.size = (taken view calls).card + (askedBeside calls).card :=
    LookupCache.size_eq_card
      (fun name kind => (holds.listed name kind).trans List.mem_toFinset.symm)
      (fun directory name => (holds.beside directory name).trans List.mem_toFinset.symm)
  have atMost : after.stats.cacheHits ≤ after.stats.lookups := by omega
  have rate := SearchStats.hit_rate_le_one atMost
  rw [ended]
  exact ⟨answers, accounts.lookups.trans answers, accounts.includerHits, accounts.misses, size,
    Nat.sub_eq_of_eq_add (by omega), atMost, rate.1, rate.2, accounts.entryProbes⟩

end SearchList

end HeaderSearch
