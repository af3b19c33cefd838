/-
RcloneSync/ClientAddress.lean

The address that a request is counted under (`client_host`, auth.py).

Behind a trusted proxy the chain of `X-Forwarded-For` is walked from the right until a hop that is
not trusted.  What a client writes into the header stands to the left of that hop and is not
reached.  It is read, though: a header with more than 32 entries, or with an entry that is no
address, is discarded as a whole, and the request counts under the address of the proxy.
-/
import RcloneSync.IpAddress

namespace RcloneSync

open Py

/-! ### Trusted proxies -/

/-- What the address goes by: the entries of `web.trusted_proxy_ips`, and how the interpreter writes
addresses of version 6 that stand for addresses of version 4. -/
structure ProxyEnv where
  trustedProxyIps : List Value
  dotted : Bool

/-- `_trusted_proxy_networks`. -/
def ProxyEnv.networks (env : ProxyEnv) : List IpNetwork :=
  env.trustedProxyIps.filterMap fun value => ipNetwork (strip (pyStr value))

/-- `trusted`. -/
def ProxyEnv.trusts (env : ProxyEnv) (a : IpAddress) : Bool :=
  env.networks.any fun n => n.contains a

/-! ### The chain -/

/-- The entries of the header that are not empty. -/
def forwardedValues (header : String) : List String :=
  ((splitOn ',' header).map strip).filter (· ≠ "")

/-- `ipaddress.ip_address(value.split("%", 1)[0])`. -/
def addressOf (value : String) : Option IpAddress := ipAddress (beforeSep '%' value)

/-- The addresses of the chain; `none` if the header is discarded. -/
def forwardedChain (header : String) : Option (List IpAddress) :=
  let values := forwardedValues header
  if values = [] ∨ 32 < values.length then none else values.mapM addressOf

/-- The loop over the reversed chain. -/
def walkHops (trusts : IpAddress → Bool) : IpAddress → List IpAddress → IpAddress
  | current, [] => current
  | current, hop :: hops => if trusts current then walkHops trusts hop hops else current

/-- `client_host`. -/
def clientHost (env : ProxyEnv) (client : Option String) (header : String) : String :=
  let peer := client.getD "unknown"
  match addressOf peer with
  | none => takeText 255 peer
  | some peerIp =>
    if env.networks = [] ∨ !env.trusts peerIp then peerIp.text env.dotted
    else
      match forwardedChain header with
      | none => peerIp.text env.dotted
      | some forwarded =>
        takeText 255 ((walkHops env.trusts peerIp forwarded.reverse).text env.dotted)

/-- The header that a client's part and the part of the proxies make. -/
def chainHeader (left : Option String) (right : String) : String :=
  match left with
  | none => right
  | some left => left ++ "," ++ right

/-! ### The walk -/

/-- The walk stops at the first hop that is not trusted, whatever is behind it. -/
theorem walkHops_append {trusts : IpAddress → Bool} {near : List IpAddress}
    (h : ∃ hop ∈ near, trusts hop = false) (current : IpAddress) (far : List IpAddress) :
    walkHops trusts current (near ++ far) = walkHops trusts current near := by
  induction near generalizing current with
  | nil =>
    obtain ⟨hop, hhop, -⟩ := h
    cases hhop
  | cons next near ih =>
    rw [List.cons_append, walkHops, walkHops]
    cases hcurrent : trusts current with
    | false => rfl
    | true =>
      rw [if_pos rfl, if_pos rfl]
      cases hnext : trusts next with
      | true =>
        refine ih ?_ next
        obtain ⟨hop, hhop, huntrusted⟩ := h
        rcases List.mem_cons.mp hhop with rfl | hhop
        · exact absurd (hnext.symm.trans huntrusted) Bool.noConfusion
        · exact ⟨hop, hhop, huntrusted⟩
      | false =>
        -- The next hop is where the walk stops.
        have hstop : ∀ hops, walkHops trusts next hops = next := by
          intro hops
          cases hops with
          | nil => rfl
          | cons hop hops =>
            rw [walkHops, hnext]
            rfl
        rw [hstop, hstop]

/-! ### The entries of a header -/

theorem forwardedValues_chain (left : String) (right : String) :
    forwardedValues (chainHeader (some left) right)
      = forwardedValues left ++ forwardedValues right := by
  have hsplit : splitOn ',' (left ++ "," ++ right) = splitOn ',' left ++ splitOn ',' right :=
    splitOn_append ',' left right
  show (List.map strip (splitOn ',' (left ++ "," ++ right))).filter _ = _
  rw [hsplit, List.map_append, List.filter_append]
  rfl

/-- The client's part adds entries on the left. -/
theorem exists_forwardedValues (left : Option String) (right : String) :
    ∃ values, forwardedValues (chainHeader left right) = values ++ forwardedValues right := by
  cases left with
  | none => exact ⟨[], rfl⟩
  | some left => exact ⟨forwardedValues left, forwardedValues_chain left right⟩

/-- Every entry of a chain that is read has its address in it. -/
theorem exists_mem_of_mapM {α β : Type} {f : α → Option β} {xs : List α} {ys : List β}
    (h : xs.mapM f = some ys) {x : α} (hx : x ∈ xs) : ∃ y ∈ ys, f x = some y := by
  induction xs generalizing ys with
  | nil => cases hx
  | cons x' xs ih =>
    rw [List.mapM_cons] at h
    obtain ⟨y', hy', h⟩ := Option.bind_eq_some_iff.mp h
    obtain ⟨rest, hrest, h⟩ := Option.bind_eq_some_iff.mp h
    obtain rfl := Option.some.inj h
    rcases List.mem_cons.mp hx with rfl | hx
    · exact ⟨y', List.mem_cons_self, hy'⟩
    · obtain ⟨y, hy, hxy⟩ := ih hrest hx
      exact ⟨y, List.mem_cons_of_mem y' hy, hxy⟩

/-! ### The address -/

/-- The part of the proxies names a hop that is not trusted. -/
def NamesUntrusted (env : ProxyEnv) (right : String) : Prop :=
  ∃ value ∈ forwardedValues right, ∃ hop, addressOf value = some hop ∧ env.trusts hop = false

/-- The address behind an accepted chain is a matter of the part of the proxies. -/
theorem walk_of_accepted {env : ProxyEnv} {right : String} (h : NamesUntrusted env right)
    {left : Option String} {forwarded : List IpAddress}
    (hchain : forwardedChain (chainHeader left right) = some forwarded) (peer : IpAddress) :
    ∃ hops, (forwardedValues right).mapM addressOf = some hops ∧
      walkHops env.trusts peer forwarded.reverse = walkHops env.trusts peer hops.reverse := by
  obtain ⟨values, hvalues⟩ := exists_forwardedValues left right
  unfold forwardedChain at hchain
  dsimp only at hchain
  split at hchain
  · cases hchain
  rw [hvalues, List.mapM_append] at hchain
  obtain ⟨far, hfar, hchain⟩ := Option.bind_eq_some_iff.mp hchain
  obtain ⟨hops, hhops, hchain⟩ := Option.bind_eq_some_iff.mp hchain
  obtain rfl := Option.some.inj hchain
  refine ⟨hops, hhops, ?_⟩
  rw [List.reverse_append]
  refine walkHops_append ?_ peer far.reverse
  obtain ⟨value, hvalue, hop, hhop, huntrusted⟩ := h
  obtain ⟨hop', hmem, hhop'⟩ := exists_mem_of_mapM hhops hvalue
  obtain rfl := Option.some.inj (hhop.symm.trans hhop')
  exact ⟨hop, List.mem_reverse.mpr hmem, huntrusted⟩

/-- The header is discarded. -/
def Discarded (header : String) : Prop := forwardedChain header = none

/-- The address of a request whose header is discarded: that of the socket peer. -/
def peerAddress (env : ProxyEnv) (client : Option String) : String :=
  let peer := client.getD "unknown"
  match addressOf peer with
  | none => takeText 255 peer
  | some peerIp => peerIp.text env.dotted

theorem clientHost_discarded (env : ProxyEnv) (client : Option String) {header : String}
    (h : Discarded header) : clientHost env client header = peerAddress env client := by
  unfold clientHost peerAddress
  dsimp only
  cases addressOf (client.getD "unknown") with
  | none => rfl
  | some peerIp =>
    dsimp only
    rw [h]
    split <;> rfl

/-- Two accepted chains that end alike give the same address. -/
theorem clientHost_accepted (env : ProxyEnv) (client : Option String) {right : String}
    (h : NamesUntrusted env right) {left left' : Option String}
    (hleft : ¬Discarded (chainHeader left right)) (hleft' : ¬Discarded (chainHeader left' right)) :
    clientHost env client (chainHeader left right)
      = clientHost env client (chainHeader left' right) := by
  obtain ⟨forwarded, hchain⟩ := Option.ne_none_iff_exists'.mp hleft
  obtain ⟨forwarded', hchain'⟩ := Option.ne_none_iff_exists'.mp hleft'
  unfold clientHost
  dsimp only
  cases addressOf (client.getD "unknown") with
  | none => rfl
  | some peerIp =>
    dsimp only
    rw [hchain, hchain']
    obtain ⟨hops, hhops, hwalk⟩ := walk_of_accepted h hchain peerIp
    obtain ⟨hops', hhops', hwalk'⟩ := walk_of_accepted h hchain' peerIp
    obtain rfl := Option.some.inj (hhops.symm.trans hhops')
    dsimp only
    rw [hwalk, hwalk']

/-- **Two requests whose chains end alike, with a hop that is not trusted, have the same address,
unless exactly one header is discarded, whose request then has the address of the peer.** -/
theorem same_client_address (env : ProxyEnv) (client : Option String) (right : String)
    (left left' : Option String) (h : NamesUntrusted env right) :
    clientHost env client (chainHeader left right)
        = clientHost env client (chainHeader left' right) ∨
      (Discarded (chainHeader left right) ∧ ¬Discarded (chainHeader left' right) ∧
        clientHost env client (chainHeader left right) = peerAddress env client) ∨
      (¬Discarded (chainHeader left right) ∧ Discarded (chainHeader left' right) ∧
        clientHost env client (chainHeader left' right) = peerAddress env client) := by
  by_cases hleft : Discarded (chainHeader left right)
  · have haddress := clientHost_discarded env client hleft
    by_cases hleft' : Discarded (chainHeader left' right)
    · exact .inl (haddress.trans (clientHost_discarded env client hleft').symm)
    · exact .inr (.inl ⟨hleft, hleft', haddress⟩)
  · by_cases hleft' : Discarded (chainHeader left' right)
    · exact .inr (.inr ⟨hleft, hleft', clientHost_discarded env client hleft'⟩)
    · exact .inl (clientHost_accepted env client h hleft hleft')

/-! ### An address that is none -/

def proxyEnv : ProxyEnv := ⟨[.str "10.0.0.0/8"], true⟩

theorem namesUntrusted_hop : NamesUntrusted proxyEnv "203.0.113.9, 10.0.0.2" := by
  have hvalues : forwardedValues "203.0.113.9, 10.0.0.2" = ["203.0.113.9", "10.0.0.2"] := by
    decide +kernel
  have haddress : addressOf "203.0.113.9" = some (.v4 (BitVec.ofNat 32 3405803785)) := by
    decide +kernel
  refine ⟨"203.0.113.9", ?_, _, haddress, by decide +kernel⟩
  rw [hvalues]
  exact List.mem_cons_self

theorem same_client_address_spoofed :
    NamesUntrusted proxyEnv "203.0.113.9, 10.0.0.2" ∧
    clientHost proxyEnv (some "10.0.0.1") (chainHeader (some "1.1.1.1") "203.0.113.9, 10.0.0.2")
      = clientHost proxyEnv (some "10.0.0.1") (chainHeader none "203.0.113.9, 10.0.0.2") := by
  refine ⟨namesUntrusted_hop, ?_⟩
  rcases same_client_address proxyEnv (some "10.0.0.1") "203.0.113.9, 10.0.0.2" (some "1.1.1.1")
    none namesUntrusted_hop with hsame | ⟨hdiscarded, -⟩ | ⟨-, hdiscarded, -⟩
  · exact hsame
  · exact absurd hdiscarded (by unfold Discarded; decide +kernel)
  · exact absurd hdiscarded (by unfold Discarded; decide +kernel)

/-- **A client that writes no address into the header counts under the address of the proxy.** -/
theorem not_same_client_address : ¬∀ (env : ProxyEnv) (client : Option String) (right : String)
    (left left' : Option String), NamesUntrusted env right →
      clientHost env client (chainHeader left right)
        = clientHost env client (chainHeader left' right) := by
  intro h
  have hsame := h proxyEnv (some "10.0.0.1") "203.0.113.9, 10.0.0.2" none (some "nobody")
    namesUntrusted_hop
  exact absurd hsame (by decide +kernel)

end RcloneSync
