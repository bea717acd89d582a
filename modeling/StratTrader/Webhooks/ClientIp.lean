import StratTrader.Users.Lockout
import StratTrader.Webhooks.View

/-!
# The address of a webhook's client

`_client_ip` of `webhooks/views.py` counts the entries of `X-Forwarded-For` from the right, as many as there are
trusted proxies. Each of these appends the address that it was called from; what stands before is the text that the
client itself has sent.

## What is proved

* `entries_foldl`: the entries of the header are those of the client's text, and behind them one for each hop that is
  not blank.
* `clientIp_forwarded`: the address is the hop of the outermost proxy without the blanks around it, whatever the client
  has sent.
* `post_forwarded`: the allowlist is asked for that address, so a client that is not on it is turned away.

## Honest scope

A proxy that finds no header begins one. The header is one text, as `request.META` has it.
-/

namespace StratTrader.Webhooks

open StratTrader.Brokers StratTrader.Foundation StratTrader.Orders StratTrader.Risk
open StratTrader.Users (RequestMeta appendHop)

/-- `[p.strip() for p in text.split(",") if p.strip()]`. -/
def entries (text : List Char) : List (List Char) :=
  ((text.splitOn ',').filter fun p => decide (stripChars p ≠ [])).map stripChars

/-- `_client_ip`, with `WEBHOOK_TRUSTED_PROXY_COUNT`. -/
def clientIp (trustedProxyCount : ℤ) (request : RequestMeta) : String :=
  let n := trustedProxyCount
  if 0 < n then
    let parts := entries (request.forwardedFor.getD "").toList
    if n ≤ parts.length then String.ofList (parts.getD (parts.length - n.toNat) [])
    else request.remoteAddr.getD ""
  else request.remoteAddr.getD ""

/-- The header that arrives behind some proxies, the outermost of which appends `hop`. -/
def forwarded (text : Option String) (hop : String) (hops : List String) : String :=
  hops.foldl (fun header hop => appendHop (some header) hop) (appendHop text hop)

/-- The request that arrives behind the proxies. -/
def behindProxies (request : WebhookRequest) (text : Option String) (hop : String) (hops : List String)
    (remoteAddr : Option String) : WebhookRequest :=
  { request with clientIp := clientIp (hops.length + 1) ⟨some (forwarded text hop hops), remoteAddr⟩ }

/-! ### The entries -/

theorem entries_append (text rest : List Char) : entries (text ++ ',' :: rest) = entries text ++ entries rest := by
  rw [entries, List.splitOn_append_cons_self, List.filter_append, List.map_append]
  rfl

/-- A text without commas has one entry, unless it is blank. -/
theorem entries_of_not_mem {hop : List Char} (hcomma : ',' ∉ hop) :
    entries hop = if stripChars hop = [] then [] else [stripChars hop] := by
  rw [entries, List.splitOn_eq_singleton hcomma, List.filter_singleton]
  by_cases hblank : stripChars hop = []
  · simp [hblank]
  · simp [hblank]

theorem stripChars_space (hop : List Char) : stripChars (' ' :: hop) = stripChars hop := by
  unfold stripChars
  rw [List.dropWhile_cons_of_pos (by decide)]

/-- A proxy adds the entry of its hop. -/
theorem entries_appendHop (header : Option String) {hop : String} (hcomma : ',' ∉ hop.toList) :
    entries (appendHop header hop).toList = entries (header.getD "").toList ++ entries hop.toList := by
  cases header with
  | none => rfl
  | some text =>
    have hsep : ", ".toList = [',', ' '] := rfl
    have hspaced : ',' ∉ ' ' :: hop.toList := List.not_mem_cons_of_ne_of_not_mem (by decide) hcomma
    rw [appendHop, String.toList_append, String.toList_append, hsep, List.append_assoc, List.cons_append,
      entries_append, List.singleton_append, entries_of_not_mem hspaced, entries_of_not_mem hcomma, stripChars_space]
    rfl

/-- **The entries of the header** are those that it had, and one for each hop that is not blank. -/
theorem entries_foldl {hops : List String} (hcommas : ∀ hop ∈ hops, ',' ∉ hop.toList) (header : String) :
    entries (hops.foldl (fun header hop => appendHop (some header) hop) header).toList =
      entries header.toList ++ hops.flatMap fun hop => entries hop.toList := by
  induction hops generalizing header with
  | nil => simp
  | cons hop hops ih =>
    obtain ⟨hcomma, hrest⟩ := List.forall_mem_cons.mp hcommas
    rw [List.foldl_cons, ih hrest, entries_appendHop _ hcomma, List.flatMap_cons, List.append_assoc]
    rfl

theorem entries_forwarded (text : Option String) {hop : String} {hops : List String}
    (hcommas : ∀ hop' ∈ hop :: hops, ',' ∉ hop'.toList) :
    entries (forwarded text hop hops).toList =
      entries (text.getD "").toList ++ (hop :: hops).flatMap fun hop => entries hop.toList := by
  obtain ⟨hcomma, hrest⟩ := List.forall_mem_cons.mp hcommas
  rw [forwarded, entries_foldl hrest, entries_appendHop text hcomma, List.flatMap_cons, List.append_assoc]

/-! ### The address -/

/-- The entry that is taken stands as far from the right as there are proxies. -/
theorem clientIp_of_entries {header : String} {before behind : List (List Char)} {entry : List Char}
    (h : entries header.toList = before ++ entry :: behind) (remoteAddr : Option String) :
    clientIp (behind.length + 1) ⟨some header, remoteAddr⟩ = String.ofList entry := by
  have hlength : (entries header.toList).length = before.length + (behind.length + 1) := by
    rw [h, List.length_append, List.length_cons]
  have hindex : before.length + (behind.length + 1) - ((behind.length : ℤ) + 1).toNat = before.length := by omega
  unfold clientIp
  dsimp only [Option.getD_some]
  rw [if_pos (by omega), hlength, if_pos (by omega), hindex, h, List.getD_eq_getElem?_getD,
    List.getElem?_append_right le_rfl, Nat.sub_self]
  rfl

theorem stripChars_ne_nil {hop : String} (h : strip hop ≠ "") : stripChars hop.toList ≠ [] := by
  intro hnil
  apply h
  rw [strip, hnil]

/-- Hops that are not blank have one entry each. -/
theorem flatMap_entries {hops : List String} (hhops : ∀ hop ∈ hops, ',' ∉ hop.toList ∧ strip hop ≠ "") :
    (hops.flatMap fun hop => entries hop.toList) = hops.map fun hop => stripChars hop.toList := by
  induction hops with
  | nil => rfl
  | cons hop hops ih =>
    obtain ⟨⟨hcomma, hblank⟩, hrest⟩ := List.forall_mem_cons.mp hhops
    rw [List.flatMap_cons, ih hrest, entries_of_not_mem hcomma, if_neg (stripChars_ne_nil hblank), List.map_cons,
      List.singleton_append]

theorem strip_of_trimmed {hop : String} (h : Trimmed hop.toList) : strip hop = hop := by
  have hlast : ∀ c ∈ hop.toList.reverse.head?, isSpace c = false := by
    rw [List.head?_reverse]
    exact h.2
  rw [strip, stripChars, dropWhile_isSpace_of_head h.1, dropWhile_isSpace_of_head hlast, List.reverse_reverse,
    String.ofList_toList]

/-- **The address of the client is the hop of the outermost proxy**, whatever the client has sent. -/
theorem clientIp_forwarded (text : Option String) (hop : String) (hops : List String) (remoteAddr : Option String)
    (hhops : ∀ hop' ∈ hop :: hops, ',' ∉ hop'.toList ∧ strip hop' ≠ "") :
    clientIp (hops.length + 1) ⟨some (forwarded text hop hops), remoteAddr⟩ = strip hop ∧
      (Trimmed hop.toList → clientIp (hops.length + 1) ⟨some (forwarded text hop hops), remoteAddr⟩ = hop) := by
  have hentries : entries (forwarded text hop hops).toList =
      entries (text.getD "").toList ++ stripChars hop.toList :: hops.map fun hop => stripChars hop.toList := by
    rw [entries_forwarded text fun hop' hmem => (hhops hop' hmem).1, flatMap_entries hhops, List.map_cons]
  have haddress := clientIp_of_entries hentries remoteAddr
  rw [List.length_map] at haddress
  exact ⟨haddress, fun htrimmed => haddress.trans (strip_of_trimmed htrimmed)⟩

theorem clientIp_forwarded_forged :
    clientIp 2 ⟨some (forwarded (some "1.2.3.4,,") "9.9.9.9" ["10.0.0.1"]), none⟩ = strip "9.9.9.9" ∧
      (Trimmed "9.9.9.9".toList →
        clientIp 2 ⟨some (forwarded (some "1.2.3.4,,") "9.9.9.9" ["10.0.0.1"]), none⟩ = "9.9.9.9") :=
  clientIp_forwarded (some "1.2.3.4,,") "9.9.9.9" ["10.0.0.1"] none (by decide)

/-- **A hop of blanks is no entry**, so that the client's own text is taken. -/
theorem not_clientIp_forwarded : ¬ ∀ (text : Option String) (hop : String) (hops : List String)
    (remoteAddr : Option String), (∀ hop' ∈ hop :: hops, ',' ∉ hop'.toList ∧ hop' ≠ "") →
      clientIp (hops.length + 1) ⟨some (forwarded text hop hops), remoteAddr⟩ = hop := by
  intro h
  have htaken := h (some "1.2.3.4") "9.9.9.9" [" "] none (by decide)
  exact absurd htaken (by decide)

/-! ### The allowlist -/

/-- **A client that is not on the allowlist is turned away**, whatever it has sent. -/
theorem post_forwarded (rt : Runtime) {env : ViewEnv} (request : WebhookRequest) (text : Option String) {hop : String}
    {hops : List String} (remoteAddr : Option String) (hhops : ∀ hop' ∈ hop :: hops, ',' ∉ hop'.toList ∧ strip hop' ≠ "")
    (henabled : env.enabled = true) (hlist : env.ipAllowlist ≠ []) (hnot : strip hop ∉ env.ipAllowlist) :
    post rt env (behindProxies request text hop hops remoteAddr) =
      .ret (some (.err "WEBHOOK_SIG_BAD" "Unauthorized." 401 none)) := by
  have haddress : (behindProxies request text hop hops remoteAddr).clientIp = strip hop :=
    (clientIp_forwarded text hop hops remoteAddr hhops).1
  unfold post
  rw [henabled, haddress, if_neg (by decide), if_pos ⟨hlist, hnot⟩]
  rfl

end StratTrader.Webhooks
