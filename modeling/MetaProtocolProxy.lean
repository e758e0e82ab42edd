import MetaProtocolProxy.Dubbo.Conversion
import MetaProtocolProxy.Dubbo.Descriptors
import MetaProtocolProxy.Dubbo.ErrorReply
import MetaProtocolProxy.Dubbo.Mirroring
import MetaProtocolProxy.Dubbo.ResponseMutation
import MetaProtocolProxy.Dubbo.Responses
import MetaProtocolProxy.LocalRateLimit.Admission
import MetaProtocolProxy.LocalRateLimit.Interleaving
import MetaProtocolProxy.LocalRateLimit.Refill
import MetaProtocolProxy.Proxy.ClientView
import MetaProtocolProxy.Proxy.Completions
import MetaProtocolProxy.Proxy.Crossing
import MetaProtocolProxy.Proxy.FilterChain
import MetaProtocolProxy.Proxy.Forwarding
import MetaProtocolProxy.Proxy.Mirrors
import MetaProtocolProxy.Proxy.ResponseMutations
import MetaProtocolProxy.Proxy.StreamEnds
import MetaProtocolProxy.Proxy.Transparency
import MetaProtocolProxy.Route.HashPolicy
import MetaProtocolProxy.Route.Translation
import MetaProtocolProxy.Route.Updates
import MetaProtocolProxy.Thrift.Chunks
import MetaProtocolProxy.Thrift.Ends
import MetaProtocolProxy.Trpc.Dispatch
import MetaProtocolProxy.Trpc.Encoding
import MetaProtocolProxy.Trpc.Hostile
import MetaProtocolProxy.Trpc.SharedCodec
