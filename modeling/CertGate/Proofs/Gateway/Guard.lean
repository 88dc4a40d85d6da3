import CertGate.Proofs.Gateway.Respond
import CertGate.Proofs.Text.Form

namespace CertGate.Gateway

open Http (Request Response)
open Program

/-- The query has a pair named `key`, and the value of the first such pair is the token, octet by
octet. An empty token opens nothing. -/
def Opens (token : String) (query : Option String) : Prop :=
  token ≠ "" ∧ ∃ q before value after, query = some q ∧
    Form.Parses (Utf8.encode q) (before ++ ("key", value) :: after) ∧ (∀ p ∈ before, p.1 ≠ "key") ∧
    Utf8.encode value = Utf8.encode token

def queryWith (front : List String) (part : String) (back : List String) : String :=
  "&".intercalate (front ++ ("key=" ++ part) :: back)

def behindGuard (g : Gateway) (r : Request) (route : Route) : Program Response := do
  let method := r.method.answeredAs
  if !route.methods.contains method then return .methodNotAllowed
  match route.decoded with
  | .error name => return .illegible name
  | .ok route =>
    if readsBody method ∧ Response.longestBody < r.body.length then return .tooLong
    g.handle r.body r.chain route method

def replied (r : Request) (p : Result Response × State) : Result Response × State :=
  (.ok (reported r p.1), p.2)

variable {g : Gateway} {w : World} {s : State} {r : Request} {route : Route} {token part other : String}
  {query : Option String} {front back : List String}

theorem keyMatches_presentedKey_iff_opens :
    keyMatches (presentedKey query) token = true ↔ Opens token query := by
  have hr : keyMatches (presentedKey query) token = true ↔ HoldsKey token ⟨.get, ⟨"", query⟩, [], []⟩ :=
    keyMatches_presentedKey_iff (r := ⟨.get, ⟨"", query⟩, [], []⟩)
  rw [hr, HoldsKey, Opens]
  refine and_congr_right fun _ ↦ exists_congr fun q ↦ ?_
  simp only [List.lookup_eq_some_iff, Form.parses_iff, bne_iff_ne]
  constructor
  · rintro ⟨hq, before, after, hp, hb⟩
    exact ⟨before, token, after, hq, hp, fun p hp ↦ Ne.symm (hb p hp), rfl⟩
  · rintro ⟨before, value, after, hq, hp, hb, hv⟩
    obtain rfl := Utf8.encode_injective hv
    exact ⟨hq, before, after, hp, fun p hp ↦ Ne.symm (hb p hp)⟩

theorem presentedKey_queryWith (back : List String)
    (hf : ∀ t ∈ front, ∀ ps, Form.Parses (Utf8.encode t) ps → ∀ p ∈ ps, p.1 ≠ "key")
    (hp : Form.Writes part other) : presentedKey (some (queryWith front part back)) = other := by
  have hkey : Form.pairs (Utf8.encode ("key=" ++ part)) = [("key", other)] := by
    have he : Utf8.encode "key" = [0x6B, 0x65, 0x79] := by decide
    have hname : Form.Writes "key" "key" := by
      rw [Form.Writes, he]
      exact .plain (by decide) (.plain (by decide) (.plain (by decide) .nil))
    have hq : "key=" = "key" ++ "=" := by decide
    rw [hq]
    exact Form.pairs_of_writes hname (by rw [he]; decide) hp
  have hfront : (front.flatMap fun t ↦ Form.pairs (Utf8.encode t)).lookup "key" = none := by
    rw [List.lookup_eq_none_iff]
    intro p hp
    obtain ⟨t, ht, hpt⟩ := List.mem_flatMap.1 hp
    exact bne_iff_ne.2 (Ne.symm (hf t ht _ (Form.parses_iff.2 rfl) p hpt))
  rw [presentedKey, Option.map_some, queryWith, Form.pairs_intercalate, List.flatMap_append,
    List.flatMap_cons, hkey, Option.getD_some, List.lookup_append, hfront]
  rfl

theorem respondAt_of_isManagement (h : route.isManagement = true) :
    g.respondAt r route =
      if keyMatches (presentedKey r.target.query) g.settings.serviceToken then g.behindGuard r route
      else ofResult (.error (.unauthorized "Wrong Credentials")) := by
  cases hk : keyMatches (presentedKey r.target.query) g.settings.serviceToken with
  | true =>
    rw [respondAt, if_neg (by simp [hk])]
    rfl
  | false =>
    rw [respondAt, if_pos (by simp [h, hk])]
    rfl

/-- The guard opens to the token, in whatever way it is written, and to nothing else. What is behind it
does not see the other requests, and requests for the options do not come to the guard. -/
theorem opens_exactly_for_token (token : String) :
    (∀ query, keyMatches (presentedKey query) token = true ↔ Opens token query) ∧
      (∀ front part other back,
        (∀ t ∈ front, ∀ ps, Form.Parses (Utf8.encode t) ps → ∀ p ∈ ps, p.1 ≠ "key") →
        Form.Writes part other →
        (keyMatches (presentedKey (some (queryWith front part back))) token = true ↔
          token ≠ "" ∧ other = token)) ∧
      (∃ part, Form.Writes part token) ∧
      ∀ (g : Gateway) (r : Request) (route : Route), g.settings.serviceToken = token →
        r.method ≠ .options → Route.ofPath r.target.path = some route → route.isManagement = true →
        (Opens token r.target.query →
          ∀ w s, run w (g.respond r) s = replied r (run w (g.behindGuard r route) s)) ∧
        (¬ Opens token r.target.query →
          ∀ w s, run w (g.respond r) s = replied r (.error (.unauthorized "Wrong Credentials"), s)) := by
  refine ⟨fun _ ↦ keyMatches_presentedKey_iff_opens, fun front part other back hf hp ↦ ?_,
    Form.exists_writes token, ?_⟩
  · rw [presentedKey_queryWith back hf hp, keyMatches_iff]
  · rintro g r route rfl hm hr h
    have hrun (w : World) (s : State) : run w (g.respond r) s = replied r (run w (g.respondAt r route) s) :=
      run_respond hm hr
    rw [← keyMatches_presentedKey_iff_opens]
    refine ⟨fun ho w s ↦ ?_, fun ho w s ↦ ?_⟩
    · rw [hrun, respondAt_of_isManagement h, if_pos ho]
    · rw [hrun, respondAt_of_isManagement h, if_neg ho, run_ofResult]

theorem opens_to_escaped_token :
    keyMatches (presentedKey (some "x=1&key=p+q%26%C3%A9&key=")) "p q&é" = true ∧
      keyMatches (presentedKey (some "key=&key=p+q%26%C3%A9")) "p q&é" = false := by
  have hx : ∀ t ∈ ["x=1"], ∀ ps, Form.Parses (Utf8.encode t) ps → ∀ p ∈ ps, p.1 ≠ "key" := by
    rintro t ht ps hp
    have hpairs : Form.pairs (Utf8.encode "x=1") = [("x", "1")] := by decide +kernel
    rw [List.mem_singleton.1 ht, Form.parses_iff, hpairs] at hp
    subst hp
    decide
  have hw : Form.Writes "p+q%26%C3%A9" "p q&é" := by
    have hpart : Utf8.encode "p+q%26%C3%A9" =
        [0x70, 0x2B, 0x71, 0x25, 0x32, 0x36, 0x25, 0x43, 0x33, 0x25, 0x41, 0x39] := by decide +kernel
    have htoken : Utf8.encode "p q&é" = [0x70, 0x20, 0x71, 0x26, 0xC3, 0xA9] := by decide +kernel
    rw [Form.Writes, hpart, htoken]
    refine .plain (by decide) (.space (.plain (by decide) ?_))
    exact .escaped (m := 2) (n := 6) rfl rfl
      (.escaped (m := 12) (n := 3) rfl rfl (.escaped (m := 10) (n := 9) rfl rfl .nil))
  have hempty : Form.Writes "" "" := .nil
  obtain ⟨-, h, -, -⟩ := opens_exactly_for_token "p q&é"
  have hopen := (h _ _ _ ["key="] hx hw).2 ⟨by decide, rfl⟩
  have hshut := (h [] _ _ ["key=p+q%26%C3%A9"] (List.forall_mem_nil _) hempty).not.2 fun he ↦
    absurd he.2 (by decide)
  exact ⟨hopen, Bool.eq_false_iff.2 hshut⟩

end CertGate.Gateway
