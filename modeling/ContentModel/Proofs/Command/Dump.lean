import ContentModel.Command.Dump
import ContentModel.Proofs.Command.Basic
import ContentModel.Proofs.Http.Dump
import ContentModel.Proofs.Text.Utf8

/-
# Dumping, and reading what was dumped

A dump that fails leaves all files as they were.  One that succeeds leaves the text of its dataset in the
file it was asked to write.  The answers of the routes have as many levels as a text may have, and the
dataset has one more.  So the file reads back as the dataset exactly if no answer uses the last level.

Main statements: `read_dump` (what the file holds), `loadDataset_dump` (when it reads back) and
`dump_classifies` (which dumps fail, and how).
-/

namespace ContentModel.Command

open Json (Value)

section Dump

variable {args : DumpArguments} {env : Environment} {path : String}

/-- The dump of the source that a command asks for. -/
def Environment.dumped (env : Environment) (args : DumpArguments) :
    Http.Exchanged (Except Http.DumpError Dataset) :=
  Http.dump env.network Http.fetchTimeout env.settings.endpoint (dumpedRoutes args env)

/-- The answers of the routes that a command asks for. -/
def Environment.answers (env : Environment) (args : DumpArguments) :
    List (String × Except FetchError Value) :=
  (Http.fetchRoutes env.network Http.fetchTimeout env.settings.endpoint (dumpedRoutes args env)).result

/-- A dump is assembled from the answers of its routes. -/
theorem result_dumped (args : DumpArguments) (env : Environment) :
    (env.dumped args).result = Http.assemble (env.answers args) :=
  rfl

/-- A dump with routes writes the dataset that it assembles. -/
theorem dump_of_routes (h : dumpedRoutes args env ≠ []) :
    (dump args env).result = (afterDumping args (env.dumped args).result env).result ∧
      (dump args env).files = (afterDumping args (env.dumped args).result env).files := by
  rw [dump]
  split
  · contradiction
  · exact ⟨rfl, rfl⟩

/-- A command that succeeds had routes to dump. -/
theorem dumpedRoutes_ne_nil (hok : (dump args env).result = .ok ()) : dumpedRoutes args env ≠ [] := by
  intro hroutes
  rw [dump, hroutes] at hok
  cases hok

/-- **The file of a dump.**  It holds the text of the dataset that was assembled. -/
theorem read_dump (hpath : args.output = some path) (hok : (dump args env).result = .ok ()) :
    ∃ d, (env.dumped args).result = .ok d ∧ (dump args env).files.read path = .ok d.toValue.pretty := by
  obtain ⟨hresult, hfiles⟩ := dump_of_routes (dumpedRoutes_ne_nil hok)
  rw [hresult] at hok
  rw [hfiles]
  cases hdump : (env.dumped args).result with
  | error e =>
    rw [hdump] at hok
    cases hok
  | ok d =>
    rw [hdump, afterDumping, hpath] at hok
    rw [afterDumping, hpath]
    exact ⟨d, rfl, read_writeOutput hok⟩

/-- **Reading what was dumped.**  The file of a dump reads back as the dataset that was assembled exactly if
the last answer of every route has fewer levels than a text may have; otherwise it cannot be read. -/
theorem loadDataset_dump (hpath : args.output = some path) (hok : (dump args env).result = .ok ()) :
    ∃ d, (env.dumped args).result = .ok d ∧
      (dump args env).files.read path = .ok d.toValue.pretty ∧
      (loadDataset path (dump args env).files = .ok d ↔
        ∀ route v, Http.LastAnswer (env.answers args) route (.ok v) → v.depth < Json.nestingLimit) ∧
      (loadDataset path (dump args env).files = .ok d ∨
        loadDataset path (dump args env).files = .error (.dataset .unreadable)) := by
  obtain ⟨d, hdump, hread⟩ := read_dump hpath hok
  have hload := loadDataset_of_read (Http.wellFormed_toValue_of_dump hdump) hread
  have hdepth : d.toValue.depth ≤ Json.nestingLimit ↔
      ∀ route v, Http.LastAnswer (env.answers args) route (.ok v) → v.depth < Json.nestingLimit := by
    rw [show Json.nestingLimit = 126 + 1 from rfl, Http.depth_toValue_le_iff hdump]
    simp only [Nat.lt_succ_iff]
    rfl
  refine ⟨d, hdump, hread, ?_, ?_⟩
  · rw [hload, ← hdepth]
    split <;> simp_all
  · rw [hload]
    split
    · exact Or.inl rfl
    · exact Or.inr rfl

/-- **A dump that fails.**  The command fails with the same error, and leaves all files as they were. -/
theorem dump_of_error {e : Http.DumpError} (h : (env.dumped args).result = .error e) :
    (dump args env).result = .error (.dump e) ∧ (dump args env).files = env.files := by
  have hroutes : dumpedRoutes args env ≠ [] := by
    intro hnone
    rw [Environment.dumped, hnone] at h
    cases h
  obtain ⟨hresult, hfiles⟩ := dump_of_routes hroutes
  rw [hresult, hfiles, h]
  exact ⟨rfl, rfl⟩

end Dump

/-- **Dumping.**  Every route is requested, in order, and answers as the reply to its request says.  A dump
reports the first route, in order, that cannot be fetched, whatever the others answer.  If all are fetched, it
reports the first route whose answer is no list of records, in the order in which the routes first appear.
Otherwise its entities are the routes in that order, each with the records of its answer.  The answer of a route
that is named more than once is the last one; the ones before it do not count.  When a dump fails, the command
fails and leaves all files as they were. -/
theorem dump_classifies (net : Http.Network) (timeout : Nat) (endpoint : String)
    (routes : List String) :
    let answers := (Http.fetchRoutes net timeout endpoint routes).result
    let dumped := Http.dump net timeout endpoint routes
    (answers.map Prod.fst = routes ∧ dumped.sent = Http.routeRequests net endpoint routes ∧
      ∀ before route after, routes = before ++ route :: after →
        ∃ answer, answers[before.length]? = some (route, answer) ∧
          Http.Answered (net.after (Http.routeRequests net endpoint before)) timeout
            (Http.routeUrl endpoint route) answer) ∧
    ((∃ entry ∈ answers, ∃ e, entry.2 = .error e) →
      ∃ before route e after, answers = before ++ (route, .error e) :: after ∧
        (∀ entry ∈ before, ∃ v, entry.2 = .ok v) ∧ dumped.result = .error (.fetch route e)) ∧
    ((∀ entry ∈ answers, ∃ v, entry.2 = .ok v) →
      (∃ route v, Http.LastAnswer answers route (.ok v) ∧ ∀ records, v ≠ Dataset.recordsValue records) →
        ∃ before route after v e, FirstAppearances (before ++ route :: after) routes ∧
          (∀ r ∈ before, ∃ records, Http.LastAnswer answers r (.ok (Dataset.recordsValue records))) ∧
          Http.LastAnswer answers route (.ok v) ∧ Dataset.Fault route v e ∧
          dumped.result = .error (.malformed e)) ∧
    ((∀ entry ∈ answers, ∃ v, entry.2 = .ok v) →
      (∀ route v, Http.LastAnswer answers route (.ok v) → ∃ records, v = Dataset.recordsValue records) →
        ∃ d, dumped.result = .ok d ∧ FirstAppearances (d.entities.map Prod.fst) routes ∧
          ∀ entity ∈ d.entities,
            Http.LastAnswer answers entity.1 (.ok (Dataset.recordsValue entity.2))) ∧
    ∀ (args : DumpArguments) (env : Environment) (e : Http.DumpError),
      (env.dumped args).result = .error e →
        (dump args env).result = .error (.dump e) ∧ (dump args env).files = env.files := by
  intro answers dumped
  have hroutes : answers.map Prod.fst = routes := Http.map_fst_fetchRoutes net routes
  refine ⟨⟨hroutes, Http.sent_fetchRoutes routes, ?_⟩, Http.assemble_of_unfetched, ?_, ?_,
    fun args env e => dump_of_error⟩
  · rintro before route after rfl
    exact Http.getElem?_fetchRoutes
  · rw [← hroutes]
    exact Http.assemble_of_malformed
  · rw [← hroutes]
    exact Http.assemble_of_records

/-- A source whose answers tell how often they were asked for before. -/
def countingSource : Http.Network where
  address := Http.Url.read
  reply := fun past request =>
    .answered ⟨200, none, some (Text.utf8 ("[\x7b\"count\": " ++ Nat.repr (past.count request) ++ "\x7d]"))⟩

/-- A record with a count. -/
def counted (n : Int) : Record :=
  [("count", .number (.integer n))]

/-- Of pages that are dumped twice, the second answer counts, at the place of the first. -/
theorem dump_classifies_counted :
    let answers := (Http.fetchRoutes countingSource Http.fetchTimeout Settings.localEndpoint
      ["pages", "tags", "pages"]).result
    let d : Dataset := ⟨[("pages", [counted 1]), ("tags", [counted 0])]⟩
    answers = Http.answersOf [("pages", Dataset.recordsValue [counted 0]),
        ("tags", Dataset.recordsValue [counted 0]), ("pages", Dataset.recordsValue [counted 1])] ∧
      (Http.dump countingSource Http.fetchTimeout Settings.localEndpoint ["pages", "tags", "pages"]).result =
        .ok d ∧
      ∀ entity ∈ d.entities, Http.LastAnswer answers entity.1 (.ok (Dataset.recordsValue entity.2)) := by
  intro answers d
  have hanswers : answers = Http.answersOf [("pages", Dataset.recordsValue [counted 0]),
      ("tags", Dataset.recordsValue [counted 0]), ("pages", Dataset.recordsValue [counted 1])] := by
    decide +kernel
  have hdump : (Http.dump countingSource Http.fetchTimeout Settings.localEndpoint
      ["pages", "tags", "pages"]).result = .ok d := by
    decide +kernel
  have hok : ∀ entry ∈ answers, ∃ v, entry.2 = .ok v := by
    rw [hanswers, Http.answersOf]
    exact List.forall_mem_map.mpr fun body _ => ⟨body.2, rfl⟩
  have hrecords : ∀ route v, Http.LastAnswer answers route (.ok v) →
      ∃ records, v = Dataset.recordsValue records := by
    intro route v hlast
    rw [hanswers, Http.lastAnswer_answersOf_iff] at hlast
    obtain h | h := List.mem_pair.mp hlast
    · exact ⟨_, (Prod.mk.inj h).2⟩
    · exact ⟨_, (Prod.mk.inj h).2⟩
  obtain ⟨d', hd', -, hentities⟩ :=
    (dump_classifies countingSource Http.fetchTimeout Settings.localEndpoint
      ["pages", "tags", "pages"]).2.2.2.1 hok hrecords
  obtain rfl : d' = d := Except.ok.inj (hd'.symm.trans hdump)
  exact ⟨hanswers, hdump, hentities⟩

/-! ## Answers of any number of levels -/

/-- Arrays within an array. -/
def nested : Nat → Value
  | 0 => .array []
  | n + 1 => .array [nested n]

theorem depth_nested (n : Nat) : (nested n).depth = n + 1 := by
  induction n with
  | zero => rfl
  | succ n ih => rw [nested, Value.depth, Value.depthOfItems, Value.depthOfItems, ih, Nat.max_zero]

theorem wellFormed_nested (n : Nat) : (nested n).WellFormed := by
  induction n with
  | zero => trivial
  | succ n ih => exact ⟨ih, trivial⟩

/-- A page with a body of the given number of levels. -/
def pages (n : Nat) : Dataset :=
  ⟨[("pages", [[("body", nested n)]])]⟩

/-- A source that answers every request with the pages. -/
def pageSource (n : Nat) : Environment where
  files := .empty
  network :=
    ⟨Http.Url.read,
      fun _ _ => .answered ⟨200, none, some (Text.utf8 (Dataset.recordsValue [[("body", nested n)]]).pretty)⟩⟩
  settings := .standard

/-- The pages, into a file. -/
def dumpPages : DumpArguments where
  routes := ["pages"]
  output := some "pages.json"

/-- The answer is read as long as it has no more levels than a text may have. -/
theorem answers_pageSource {n : Nat} (h : n < 125) :
    (pageSource n).answers dumpPages =
      Http.answersOf [("pages", Dataset.recordsValue [[("body", nested n)]])] := by
  have hformed : (Dataset.recordsValue [[("body", nested n)]]).WellFormed :=
    ⟨⟨List.nodup_singleton _, wellFormed_nested n, trivial⟩, trivial⟩
  have hdepth : (Dataset.recordsValue [[("body", nested n)]]).depth ≤ Json.nestingLimit := by
    refine Value.depth_array_le_iff.mpr (List.forall_mem_singleton.mpr ?_)
    refine Value.depth_object_le_iff.mpr (List.forall_mem_singleton.mpr ?_)
    rw [depth_nested]
    omega
  have hread := Value.parse?_pretty hformed
  rw [if_pos hdepth] at hread
  have haddress : (pageSource n).network.address = Http.Url.read := rfl
  have hurl : (pageSource n).network.address (Http.routeUrl Settings.localEndpoint "pages") =
      .ok "http://localhost:1337/pages" := by
    rw [haddress]
    decide +kernel
  have hsuccess : 200 ≤ 200 ∧ 200 < 300 := by decide
  have hfetch : (Http.fetchRoute (pageSource n).network Http.fetchTimeout Settings.localEndpoint
      "pages").result = .ok (Dataset.recordsValue [[("body", nested n)]]) :=
    Http.fetchRoute_of_answered (.json hurl rfl hsuccess rfl (Text.ofUtf8?_utf8 _) hread)
  rw [Environment.answers, show dumpedRoutes dumpPages (pageSource n) = ["pages"] from rfl,
    Http.result_fetchRoutes_cons]
  rw [show (pageSource n).settings.endpoint = Settings.localEndpoint from rfl, hfetch]
  rfl

/-- The pages are assembled and written as long as the answer can be read. -/
theorem dump_pageSource {n : Nat} (h : n < 125) :
    (dump dumpPages (pageSource n)).result = .ok () ∧
      ((pageSource n).dumped dumpPages).result = .ok (pages n) := by
  have hdump : ((pageSource n).dumped dumpPages).result = .ok (pages n) := by
    rw [result_dumped]
    exact Http.assemble_eq_ok_iff.mpr ⟨_, answers_pageSource h, rfl⟩
  have hwrite : ∀ text, Files.Tree.write "pages.json" text .empty =
      .ok ⟨.directory [("pages.json", .file text)]⟩ :=
    fun text => Files.Tree.write_eq_ok_iff.mpr ⟨["pages.json"], by decide, rfl⟩
  refine ⟨?_, hdump⟩
  rw [(@dump_of_routes dumpPages (pageSource n) nofun).1, hdump, afterDumping]
  show (writeOutput (some "pages.json") (pages n).toValue.pretty .empty).result = _
  simp only [writeOutput, hwrite]

/-- Answers of fewer levels read back. -/
theorem loadDataset_dump_pages :
    dumpPages.output = some "pages.json" ∧ (dump dumpPages (pageSource 10)).result = .ok () ∧
      loadDataset "pages.json" (dump dumpPages (pageSource 10)).files = .ok (pages 10) := by
  obtain ⟨hok, hdump⟩ := dump_pageSource (show 10 < 125 by decide)
  obtain ⟨d, hd, -, hload, -⟩ := loadDataset_dump (show dumpPages.output = some "pages.json" from rfl) hok
  obtain rfl : d = pages 10 := Except.ok.inj (hd.symm.trans hdump)
  refine ⟨rfl, hok, hload.mpr fun route v hv => ?_⟩
  rw [answers_pageSource (by decide), Http.lastAnswer_answersOf_iff] at hv
  rw [(Prod.mk.inj (List.mem_singleton.mp hv)).2]
  decide

/-- An answer that uses the last level is dumped into a file that cannot be read. -/
theorem not_loadDataset_dump_of_last_level :
    (dump dumpPages (pageSource 124)).result = .ok () ∧
      loadDataset "pages.json" (dump dumpPages (pageSource 124)).files =
        .error (.dataset .unreadable) := by
  obtain ⟨hok, hdump⟩ := dump_pageSource (show 124 < 125 by decide)
  obtain ⟨d, hd, hread⟩ := read_dump (show dumpPages.output = some "pages.json" from rfl) hok
  obtain rfl : d = pages 124 := Except.ok.inj (hd.symm.trans hdump)
  refine ⟨hok, ?_⟩
  rw [loadDataset_of_read (Http.wellFormed_toValue_of_dump hdump) hread, if_neg]
  decide +kernel

end ContentModel.Command
