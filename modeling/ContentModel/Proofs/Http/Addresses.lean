import ContentModel.Proofs.Http.Delivery
import ContentModel.Proofs.Text.Percent

/-
# Addresses of entities

The address of an entity is the base without the slashes at its end, a fixed part, and the name of the entity,
percent-encoded as one segment.  The name can be read off the segment, so two entities have two addresses.
Addresses are compared as the texts with which requests are asked for; the client brings them into a normal form
when it sends them.

Main statements: `dropEnd_eq` (the base), `entityUrl_injective` (one entity for each address) and
`addresses_separate`.
-/

namespace ContentModel

/-- A text is what is left of it when a character is removed from its end, and that character some times. -/
theorem Text.dropEnd_eq (c : Char) (s : String) :
    (∃ n, s = Text.dropEnd c s ++ String.ofList (List.replicate n c)) ∧
      (Text.dropEnd c s).toList.getLast? ≠ some c := by
  rw [Text.dropEnd, Text.dropEndWhile]
  have hsplit := List.takeWhile_append_dropWhile (p := (· == c)) (l := s.toList.reverse)
  have hend : (s.toList.reverse.takeWhile (· == c)) =
      List.replicate (s.toList.reverse.takeWhile (· == c)).length c := by
    refine List.eq_replicate_iff.mpr ⟨rfl, fun d hd => ?_⟩
    exact eq_of_beq (List.all_eq_true.mp List.all_takeWhile d hd)
  constructor
  · refine ⟨(s.toList.reverse.takeWhile (· == c)).length, ?_⟩
    rw [← String.ofList_append, ← String.toList_inj, String.toList_ofList]
    have hreverse := congrArg List.reverse hsplit
    rw [List.reverse_append, List.reverse_reverse, hend, List.reverse_replicate] at hreverse
    exact hreverse.symm
  · rw [String.toList_ofList, List.getLast?_reverse]
    have hhead := List.head?_dropWhile_not (· == c) s.toList.reverse
    intro hlast
    rw [hlast] at hhead
    simp at hhead

namespace Http

/-- **Entities.**  Different entities have different addresses. -/
theorem entityUrl_injective (base : String) : Function.Injective (entityUrl base) := by
  intro entity entity' h
  have hlist := congrArg String.toList h
  simp only [entityUrl, String.toList_append, List.append_cancel_left_eq] at hlist
  have hread := congrArg Text.percentDecode? (String.toList_inj.mp hlist)
  rw [Text.percentDecode?_percentEncode, Text.percentDecode?_percentEncode] at hread
  exact Option.some.inj hread

/-- What a record asks for goes to the address of its entity. -/
theorem url_of_mem_exchanges_submitRecord {net : Network} {base : String} {x : String × CompiledRecord}
    {exchange : Exchange} (h : exchange ∈ (submitRecord net base x).exchanges) :
    exchange.asked.url = entityUrl base x.1 := by
  obtain ⟨p, -, hasked⟩ := asked_of_mem_exchanges_submitRecord h
  rw [hasked, Request.post]

/-- **Addresses.**  Two entities have one address only if they are the same, and so the requests of records of
different entities are asked for with different addresses.  An address is the base without slashes at its end, the
fixed part `/api/` and one segment, which holds no slash, question mark, hash or white space and reads back as the
name of the entity.  The address with which a request is asked for is not yet the one to which it is sent: in the
normal form no segment is a dot, so an entity named `.` and one without a name are asked for apart, but sent to one
place. -/
theorem addresses_separate (base : String) :
    (∀ entity entity', entityUrl base entity = entityUrl base entity' ↔ entity = entity') ∧
      (∀ net net' x y, ∀ exchange ∈ (submitRecord net base x).exchanges,
        ∀ exchange' ∈ (submitRecord net' base y).exchanges,
        exchange.asked.url = exchange'.asked.url → x.1 = y.1) ∧
      ∃ root : String, (∃ n, base = root ++ String.ofList (List.replicate n '/')) ∧
        root.toList.getLast? ≠ some '/' ∧
        ∀ entity, ∃ segment : String, entityUrl base entity = root ++ "/api/" ++ segment ∧
          (∀ c ∈ segment.toList, c ≠ '/' ∧ c ≠ '?' ∧ c ≠ '#' ∧ Text.isBlank c = false) ∧
          Text.percentDecode? segment = some entity := by
  obtain ⟨hbase, hlast⟩ := Text.dropEnd_eq '/' base
  refine ⟨fun entity entity' => (entityUrl_injective base).eq_iff, ?_, ?_⟩
  · intro net net' x y exchange hexchange exchange' hexchange' hurl
    rw [url_of_mem_exchanges_submitRecord hexchange, url_of_mem_exchanges_submitRecord hexchange'] at hurl
    exact entityUrl_injective base hurl
  · refine ⟨Text.dropEnd '/' base, hbase, hlast, fun entity => ?_⟩
    refine ⟨Text.percentEncode entity, rfl, fun c hc => ?_, Text.percentDecode?_percentEncode entity⟩
    exact Text.ne_of_isSegmentChar (Text.isSegmentChar_of_mem_percentEncode hc)

/-- A post of an entity whose name has a blank, and one of an entity whose name looks like that name encoded. -/
theorem addresses_separate_posts :
    let x : String × CompiledRecord := ("blog posts", ⟨0, .ok plainPost⟩)
    let y : String × CompiledRecord := ("blog%20posts", ⟨0, .ok plainPost⟩)
    ∃ exchange ∈ (submitRecord .offline "http://localhost:1337/" x).exchanges,
      ∃ exchange' ∈ (submitRecord .offline "http://localhost:1337/" y).exchanges,
        exchange.asked.url = "http://localhost:1337/api/blog%20posts" ∧
          exchange'.asked.url = "http://localhost:1337/api/blog%2520posts" ∧
          exchange.asked.url ≠ exchange'.asked.url := by
  intro x y
  have hvalid : ∀ a ∈ plainPost.files, MediaType.isValid a.mime = true := by simp [plainPost]
  have hsent : ∀ entity address,
      Network.offline.address (entityUrl "http://localhost:1337/" entity) = .ok address →
      ∃ exchange ∈ (submitRecord .offline "http://localhost:1337/" (entity, ⟨0, .ok plainPost⟩)).exchanges,
        exchange.asked.url = entityUrl "http://localhost:1337/" entity := by
    intro entity address hread
    have hposted := (delivers "http://localhost:1337/" (entity, ⟨0, .ok plainPost⟩)).posted plainPost rfl
      hvalid .offline address hread
    have hsome :
        (submitRecord .offline "http://localhost:1337/" (entity, ⟨0, .ok plainPost⟩)).exchanges ≠ [] := by
      rw [hposted]
      exact List.cons_ne_nil _ _
    obtain ⟨exchange, hexchange⟩ := List.exists_mem_of_ne_nil _ hsome
    have hurl := url_of_mem_exchanges_submitRecord hexchange
    exact ⟨exchange, hexchange, hurl⟩
  obtain ⟨exchange, hx, hurlx⟩ := hsent "blog posts" "http://localhost:1337/api/blog%20posts" (by decide +kernel)
  obtain ⟨exchange', hy, hurly⟩ :=
    hsent "blog%20posts" "http://localhost:1337/api/blog%2520posts" (by decide +kernel)
  have hne : x.1 ≠ y.1 := by decide
  refine ⟨exchange, hx, exchange', hy, hurlx.trans (by decide +kernel), hurly.trans (by decide +kernel),
    fun hurl => hne ?_⟩
  exact (addresses_separate "http://localhost:1337/").2.1 .offline .offline x y exchange hx exchange' hy hurl

end Http

end ContentModel
